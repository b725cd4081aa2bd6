import Tenodera.Agent.Networking
import Tenodera.Agent.ShellScripts
import Tenodera.Lib.Trim

/-!
# The configuration of systemd-resolved

`set_resolved_config` writes `resolved.conf` anew from eight fields, and `read_resolved_conf` reads
them back.  What else the old file sets is lost, and a line break in a value begins a line that the
reader, and `systemd-resolved`, take as one of their own: `resolved_law_iff`.
-/

namespace Tenodera.Agent.ResolvedConf

open Text Protocol Host Effect

/-- The fields of the editor. -/
inductive Field
  | dns | fallbackDns | domains | dnssec | dnsOverTls | cache | llmnr | mdns
  deriving DecidableEq

/-- In the order in which they are written. -/
def Field.all : List Field :=
  [.dns, .fallbackDns, .domains, .dnssec, .dnsOverTls, .cache, .llmnr, .mdns]

/-- The key of a field in the file. -/
def Field.key : Field → List Char
  | .dns => "DNS".toList
  | .fallbackDns => "FallbackDNS".toList
  | .domains => "Domains".toList
  | .dnssec => "DNSSEC".toList
  | .dnsOverTls => "DNSOverTLS".toList
  | .cache => "Cache".toList
  | .llmnr => "LLMNR".toList
  | .mdns => "MulticastDNS".toList

/-- The name of a field in a request. -/
def Field.name : Field → String
  | .dns => "dns"
  | .fallbackDns => "fallback_dns"
  | .domains => "domains"
  | .dnssec => "dnssec"
  | .dnsOverTls => "dns_over_tls"
  | .cache => "cache"
  | .llmnr => "llmnr"
  | .mdns => "mdns"

abbrev Fields : Type := Field → List Char

/-! ## Reading -/

abbrev Setting : Type := List Char × List Char

/-- The setting that a line is. -/
def setting (line : List Char) : Option Setting :=
  let line := trimmed line
  if line.head? = some '#' ∨ line.head? = some '[' ∨ line = [] then none
  else (Words.splitOnce (· = '=') line).map fun s => (trimmed s.1, trimmed s.2)

def settings (content : List Char) : List Setting := (linesOf content).filterMap setting

/-- The field of the key is set. -/
def Fields.put (fields : Fields) (s : Setting) : Fields := fun f =>
  if s.1 = f.key then s.2 else fields f

/-- The fields that `read_resolved_conf` reads, from the file of the user or else from the one of
the distribution. -/
def readResolvedConf (conf default : Option (List Char)) : Fields :=
  let content := conf.getD []
  let effective := if content = [] then default.getD [] else content
  (settings effective).foldl Fields.put fun _ => []

/-! ## Writing -/

/-- The line of a field. -/
def assignment (fields : Fields) (f : Field) : List Char := f.key ++ '=' :: trimmed (fields f)

/-- The lines of `set_resolved_config`. -/
def newLines (fields : Fields) : List (List Char) :=
  "# Generated by Tenodera Admin Panel".toList :: "[Resolve]".toList ::
    (Field.all.filter fun f => trimmed (fields f) ≠ []).map (assignment fields)

/-- The new text of `set_resolved_config`. -/
def newText (fields : Fields) : List Char := ['\n'].intercalate (newLines fields) ++ ['\n']

def confPath : String := "/etc/systemd/resolved.conf"

/-- `set_resolved_config`. -/
def setResolvedConfig (data : Value) (user password : String) : HostM Value := do
  let fields : Fields := fun f => (strField data f.name).toList
  let written ← sudoStdinWriteAsUser user password ["tee", confPath]
    (String.ofList (newText fields))
  if ¬ isOk written then return written
  let reload ← sudoAsUser user password ["systemctl", "kill", "-s", "HUP", "systemd-resolved"]
  if isOk reload then return okValue
  sudoAsUser user password ["systemctl", "restart", "systemd-resolved"]

/-! ## The law of the two -/

/-- A setting that no field manages.  `systemd-resolved` takes a line that begins with a semicolon
for a comment. -/
def IsUnmanaged (s : Setting) : Prop := s.1.head? ≠ some ';' ∧ ∀ f : Field, s.1 ≠ f.key

/-- The fields are read back as they were assigned, the settings that no field manages are kept, and
no value brings another setting with it. -/
structure ResolvedLaw (old : List Char) (fields : Fields) : Prop where
  reads : ∀ default f, readResolvedConf (some (newText fields)) default f = trimmed (fields f)
  keeps : ∀ s ∈ settings old, IsUnmanaged s → s ∈ settings (newText fields)
  confined : ∀ s ∈ settings (newText fields),
    s ∈ settings old ∨ ∃ f : Field, trimmed (fields f) ≠ [] ∧ s = (f.key, trimmed (fields f))

section

variable {old line : List Char} {fields start : Fields} {f : Field} {s : Setting}

/-! ## The lines that are written -/

theorem mem_all (f : Field) : f ∈ Field.all := by
  cases f <;> decide

theorem key_inj : Function.Injective Field.key := by
  intro f g h
  cases f <;> cases g <;> first | rfl | exact absurd h (by decide)

theorem of_mem_key {c : Char} (hc : c ∈ f.key) : c.isAlpha = true := by
  have hall : ∀ g ∈ Field.all, g.key.all Char.isAlpha = true := by decide
  exact List.all_eq_true.1 (hall f (mem_all f)) c hc

theorem key_ne_nil (f : Field) : f.key ≠ [] := by
  cases f <;> decide

theorem key_solid {c : Char} (hc : c ∈ f.key) :
    isWhitespace c = false ∧ c ≠ '=' ∧ c ≠ '\n' ∧ c ≠ '#' ∧ c ≠ '[' ∧ c ≠ ';' := by
  have halpha := of_mem_key hc
  refine ⟨isWhitespace_of_isAlphanum (by simp [Char.isAlphanum, halpha]), ?_, ?_, ?_, ?_, ?_⟩ <;>
  · rintro rfl
    exact absurd halpha (by decide)

theorem trimmed_key (f : Field) : trimmed f.key = f.key :=
  trimmed_eq_self (fun _ hc => (key_solid (List.mem_of_mem_head? hc)).1)
    fun _ hc => (key_solid (List.mem_of_mem_getLast? hc)).1

/-- The line of a field is read as its setting. -/
theorem setting_assignment (fields : Fields) (f : Field) :
    setting (assignment fields f) = some (f.key, trimmed (fields f)) := by
  obtain ⟨c, key, hkey⟩ := List.exists_cons_of_ne_nil (key_ne_nil f)
  obtain ⟨hwhite, -, -, hhash, hbracket, -⟩ := key_solid (f := f) (c := c) (by simp [hkey])
  have hdrop : (assignment fields f).dropWhile isWhitespace = assignment fields f := by
    rw [assignment, hkey]
    exact List.dropWhile_cons_of_neg (by simp [hwhite])
  have hline : trimmed (assignment fields f) =
      f.key ++ '=' :: (trimmed (fields f)).rdropWhile isWhitespace := by
    rw [trimmed, hdrop, assignment, Words.rdropWhile_append_cons (by decide)]
  have hequals : ∀ d ∈ f.key, decide (d = '=') = false := fun d hd =>
    decide_eq_false (key_solid hd).2.1
  have hfirst : ¬ ((trimmed (assignment fields f)).head? = some '#' ∨
      (trimmed (assignment fields f)).head? = some '[' ∨ trimmed (assignment fields f) = []) := by
    rw [hline, hkey]
    simp [hhash, hbracket]
  simp only [setting, if_neg hfirst]
  rw [hline, Words.splitOnce_append_cons hequals rfl, Option.map_some, trimmed_rdropWhile,
    trimmed_trimmed, trimmed_key]

theorem setting_of_comment (line : List Char) : setting ('#' :: line) = none := by
  have hhead : (trimmed ('#' :: line)).head? = some '#' := by
    rw [head?_trimmed]
    rfl
  simp [setting, hhead]

/-- The line ends in a character that is not white space. -/
theorem getLast?_assignment (h : trimmed (fields f) ≠ []) :
    (assignment fields f).getLast? ≠ some '\r' := by
  rw [assignment, List.getLast?_append_cons, List.getLast?_cons_of_ne_nil h]
  intro hcr
  exact absurd (isWhitespace_of_getLast?_trimmed hcr) (by decide)

/-! ## Values without line breaks -/

theorem newline_notMem_assignment (h : '\n' ∉ trimmed (fields f)) :
    '\n' ∉ assignment fields f := by
  rw [assignment, List.mem_append, List.mem_cons, not_or, not_or]
  exact ⟨fun hmem => (key_solid hmem).2.2.1 rfl, by decide, h⟩

/-- Without line breaks in the values, the lines of the new text are those that were written. -/
theorem linesOf_newText (h : ∀ f, '\n' ∉ trimmed (fields f)) :
    linesOf (newText fields) = newLines fields := by
  have hmem : ∀ line ∈ newLines fields, '\n' ∉ line ∧ line.getLast? ≠ some '\r' := by
    intro line hline
    simp only [newLines, List.mem_cons, List.mem_map, List.mem_filter, decide_eq_true_iff] at hline
    rcases hline with rfl | rfl | ⟨f, ⟨-, hf⟩, rfl⟩
    · decide
    · decide
    · exact ⟨newline_notMem_assignment (h f), getLast?_assignment hf⟩
  have hne : newLines fields ≠ [] := List.cons_ne_nil _ _
  rw [newText, intercalate_newline hne,
    linesOf_unlines fun line hline => (hmem line hline).1]
  exact map_stripCr_eq_self_iff.2 fun line hline => (hmem line hline).2

theorem settings_newText (h : ∀ f, '\n' ∉ trimmed (fields f)) : settings (newText fields) =
    (Field.all.filter fun f => trimmed (fields f) ≠ []).map fun f =>
      (f.key, trimmed (fields f)) := by
  have hcomment : setting "# Generated by Tenodera Admin Panel".toList = none :=
    setting_of_comment _
  have hheader : setting "[Resolve]".toList = none := by decide
  rw [settings, linesOf_newText h, newLines, List.filterMap_cons_none hcomment,
    List.filterMap_cons_none hheader, List.filterMap_map]
  exact List.filterMap_eq_map_iff_forall_eq_some.2 fun f _ => setting_assignment fields f

/-- What stands in a list of fields is put, and the other fields are left as they are. -/
theorem foldl_put (fs : List Field) (start fields : Fields) :
    ((fs.filter fun f => trimmed (fields f) ≠ []).map fun f =>
        (f.key, trimmed (fields f))).foldl Fields.put start =
      fun f => if f ∈ fs ∧ trimmed (fields f) ≠ [] then trimmed (fields f) else start f := by
  induction fs generalizing start with
  | nil => simp
  | cons g fs ih =>
    funext f
    by_cases hg : trimmed (fields g) ≠ []
    · rw [List.filter_cons_of_pos (by simpa using hg), List.map_cons, List.foldl_cons, ih]
      by_cases hfg : g = f
      · subst hfg
        simp [hg, Fields.put]
      · simp [Fields.put, key_inj.ne hfg, Ne.symm hfg]
    · rw [List.filter_cons_of_neg (by simpa using hg), ih]
      by_cases hfg : f = g
      · subst hfg
        simp [not_not.1 hg]
      · simp [hfg]

theorem readResolvedConf_newText (h : ∀ f, '\n' ∉ trimmed (fields f))
    (default : Option (List Char)) (f : Field) :
    readResolvedConf (some (newText fields)) default f = trimmed (fields f) := by
  have hne : newText fields ≠ [] := by simp [newText]
  rw [readResolvedConf, Option.getD_some, if_neg hne, settings_newText h, foldl_put]
  dsimp only
  split_ifs with hf
  · rfl
  · rw [not_and_or, not_not] at hf
    exact (hf.resolve_left (not_not.2 (mem_all f))).symm

/-! ## The command -/

/-- What `set_resolved_config` runs first: the new text goes through `tee`, whatever the old one. -/
theorem asks_setResolvedConfig {data : Value} {user password : String}
    (huser : Text.hasNul user = false) : (setResolvedConfig data user password).Asks
      (.run ⟨some user, ["sudo", "-S", "-k", "sh", "-c",
        decodeInto "'tee' '/etc/systemd/resolved.conf'"
          (String.ofList (newText fun f => (strField data f.name).toList))],
        some (password ++ "\n")⟩) := by
  have hcommand : " ".intercalate (["tee", confPath].map shellEscape) =
      "'tee' '/etc/systemd/resolved.conf'" := by decide
  have hnul : Text.hasNul "'tee' '/etc/systemd/resolved.conf'" = false := by decide
  unfold setResolvedConfig
  rw [Prog.asks_bind, asks_sudoStdinWriteAsUser_iff, hcommand]
  exact .inl ⟨⟨huser, hnul⟩, rfl⟩

/-! ## The law -/

/-- The value of a setting is a part of its line. -/
theorem subset_of_setting (h : setting line = some s) : s.2 ⊆ line := by
  simp only [setting] at h
  split_ifs at h
  obtain ⟨⟨key, val⟩, hsplit, rfl⟩ := Option.map_eq_some_iff.1 h
  obtain ⟨_, -, hline⟩ := Words.append_of_splitOnce hsplit
  have htrimmed (cs : List Char) : trimmed cs ⊆ cs := fun _ hc =>
    (List.dropWhile_suffix _).subset ((List.rdropWhile_prefix _ _).subset hc)
  intro c hc
  refine htrimmed line ?_
  rw [hline]
  exact List.mem_append_right _ (List.mem_cons_of_mem _ (htrimmed val hc))

/-- What is read of a text has no line break. -/
theorem newline_notMem_read (conf default : Option (List Char)) (f : Field) :
    '\n' ∉ readResolvedConf conf default f := by
  have hfold (l : List Setting) (start : Fields) (hstart : ∀ f, '\n' ∉ start f)
      (hl : ∀ s ∈ l, '\n' ∉ s.2) : ∀ f, '\n' ∉ l.foldl Fields.put start f := by
    induction l generalizing start with
    | nil => exact hstart
    | cons s l ih =>
      refine ih _ (fun g => ?_) fun t ht => hl t (List.mem_cons_of_mem s ht)
      unfold Fields.put
      split_ifs
      · exact hl s List.mem_cons_self
      · exact hstart g
  refine hfold _ _ (fun _ => List.not_mem_nil) (fun s hs hmem => ?_) f
  obtain ⟨line, hline, hs⟩ := List.mem_filterMap.1 hs
  exact newline_notMem_of_mem_linesOf hline (subset_of_setting hs hmem)

/-- Saving keeps the law of the two exactly when the old file has no other setting and no value has
a line break inside. -/
theorem resolved_law_iff : ResolvedLaw old fields ↔
    (∀ s ∈ settings old, ¬ IsUnmanaged s) ∧ ∀ f, '\n' ∉ trimmed (fields f) := by
  have hmem (hbreak : ∀ f, '\n' ∉ trimmed (fields f)) (s : Setting) :
      s ∈ settings (newText fields) ↔
        ∃ f, trimmed (fields f) ≠ [] ∧ s = (f.key, trimmed (fields f)) := by
    simp only [settings_newText hbreak, List.mem_map, List.mem_filter, mem_all, true_and,
      decide_eq_true_iff]
    exact exists_congr fun f => and_congr_right fun _ => eq_comm
  constructor
  · rintro ⟨hreads, hkeeps, -⟩
    have hbreak : ∀ f, '\n' ∉ trimmed (fields f) := fun f => by
      rw [← hreads none f]
      exact newline_notMem_read _ _ f
    refine ⟨fun s hs hunmanaged => ?_, hbreak⟩
    obtain ⟨f, -, rfl⟩ := (hmem hbreak s).1 (hkeeps s hs hunmanaged)
    exact hunmanaged.2 f rfl
  · rintro ⟨hmanaged, hbreak⟩
    exact ⟨readResolvedConf_newText hbreak, fun s hs h => absurd h (hmanaged s hs),
      fun s hs => .inr ((hmem hbreak s).1 hs)⟩

/-- A setting that no field manages is lost when the fields are saved as they were read. -/
theorem stub_listener_lost : ¬ ResolvedLaw "[Resolve]\nDNSStubListener=no\n".toList
    (readResolvedConf (some "[Resolve]\nDNSStubListener=no\n".toList) none) := by
  intro h
  have hold : ("DNSStubListener".toList, "no".toList) ∈
      settings "[Resolve]\nDNSStubListener=no\n".toList := by decide +kernel
  have hunmanaged : IsUnmanaged ("DNSStubListener".toList, "no".toList) := by
    refine ⟨by decide, fun f => ?_⟩
    cases f <;> decide
  have hnew := h.keeps _ hold hunmanaged
  revert hnew
  decide +kernel

end

end Tenodera.Agent.ResolvedConf

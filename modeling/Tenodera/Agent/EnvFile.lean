import Tenodera.Agent.KdumpConfig

/-!
# The environment file of the agent

`load_env_file` reads `agent.cnf`, and `scrub_bootstrap_token` takes the lines of the bootstrap
token out of it.  The two find the key of a line with code of their own: `isBootstrapTokenLine_iff`
says that they agree on every line.
-/

namespace Tenodera.Agent.EnvFile

open Text KdumpConfig

/-! ## Loading -/

/-- `str::trim_matches` with a character. -/
def trimMatches (q : Char) (cs : List Char) : List Char := (cs.dropWhile (· = q)).rdropWhile (· = q)

abbrev Setting : Type := List Char × List Char

/-- The setting that a line is. -/
def setting (line : List Char) : Option Setting :=
  let line := trimmed line
  if line = [] ∨ line.head? = some '#' then none
  else
    match Words.splitOnce (· = '=') line with
    | some (key, val) => some (trimmed key, trimMatches '\'' (trimMatches '"' (trimmed val)))
    | none => none

/-- The settings that the loop of `load_env_file` reads, in their order. -/
def settings (content : List Char) : List Setting := (linesOf content).filterMap setting

/-- The variables of the process, as far as `std::env::var` gives them. -/
abbrev Env : Type := List Char → Option (List Char)

/-- What `std::env::set_var` takes without a panic; a key has no `=`. -/
def isSettable (s : Setting) : Bool := s.1 ≠ [] && '\x00' ∉ s.1 && '\x00' ∉ s.2

/-- The variables that are set from the settings; `none` is a panic. -/
def setVars : Env → List Setting → Option Env
  | env, [] => some env
  | env, s :: rest =>
    if (env s.1).isSome then setVars env rest
    else if isSettable s then setVars (Function.update env s.1 (some s.2)) rest
    else none

/-- `load_env_file`, on the file if it can be read. -/
def loadEnvFile (env : Env) : Option (List Char) → Option Env
  | none => some env
  | some content => setVars env (settings content)

/-! ## Scrubbing -/

def token : List Char := "TENODERA_BOOTSTRAP_TOKEN".toList

/-- `str::strip_prefix` with `export `, and the white space behind it. -/
def stripExport (t : List Char) : List Char :=
  if "export ".toList.isPrefixOf t then (t.drop 7).dropWhile isWhitespace else t

/-- `is_bootstrap_token_line`. -/
def isBootstrapTokenLine (line : List Char) : Bool :=
  match Words.splitOnce (· = '=') (stripExport (line.dropWhile isWhitespace)) with
  | some (key, _) => key.rdropWhile isWhitespace = token
  | none => false

/-- The text that `scrub_bootstrap_token` leaves. -/
def scrubBootstrapToken (content : List Char) : List Char :=
  if (linesOf content).any isBootstrapTokenLine then
    rejoined content ((linesOf content).filter fun line => !isBootstrapTokenLine line)
  else content

/-! ## The law of the two -/

/-- The setting is not one of the token. -/
def isOther (s : Setting) : Bool := stripExport s.1 ≠ token

/-- After scrubbing no line is read as the token, the other settings are those of the old text, so
that the process gets the same other variables from them, and there is nothing left to scrub. -/
def ScrubLaw (content : List Char) : Prop :=
  let new := scrubBootstrapToken content
  (∀ s ∈ settings new, s.1 ≠ token) ∧
    settings new = (settings content).filter isOther ∧
    (∀ env vars, loadEnvFile env (some content) = some vars →
      ∃ vars', loadEnvFile env (some new) = some vars' ∧
        ∀ key, vars' key = if stripExport key ≠ token then vars key else env key) ∧
    scrubBootstrapToken new = new

section

variable {content line key val rest : List Char} {lines : List (List Char)} {s : Setting}
  {l : List Setting} {env vars : Env}

/-! ## The key of a line -/

/-- The word `export` stands in front of the first `=`, if at all. -/
theorem export_prefix_iff :
    "export ".toList <+: key ++ '=' :: rest ↔ "export ".toList <+: key := by
  refine ⟨fun h => ?_, fun h => h.trans (List.prefix_append _ _)⟩
  rcases List.prefix_or_prefix_of_prefix h (List.prefix_append key _) with hpre | hpre
  · exact hpre
  · obtain ⟨w, hw⟩ := hpre
    by_cases hnil : w = []
    · rw [hnil, List.append_nil] at hw
      exact hw ▸ List.prefix_rfl
    · rw [← hw, List.prefix_append_right_inj] at h
      obtain ⟨c, w', rfl⟩ := List.exists_cons_of_ne_nil hnil
      obtain rfl := (List.cons_prefix_cons.1 h).1
      have hmem : '=' ∈ "export ".toList := by
        rw [← hw]
        simp
      exact absurd hmem (by decide)

theorem stripExport_append (key rest : List Char) :
    stripExport (key ++ '=' :: rest) = stripExport key ++ '=' :: rest := by
  unfold stripExport
  simp only [List.isPrefixOf_iff_prefix, export_prefix_iff]
  split_ifs with hexport
  · obtain ⟨key', rfl⟩ := hexport
    rw [List.append_assoc]
    exact Words.dropWhile_append_cons (by decide) _ _
  · rfl

/-- White space at the end of a key makes no difference to what stands behind `export`. -/
theorem stripExport_rdropWhile (key : List Char) :
    (stripExport key).rdropWhile isWhitespace = token ↔
      stripExport (key.rdropWhile isWhitespace) = token := by
  unfold stripExport
  simp only [List.isPrefixOf_iff_prefix]
  by_cases hexport : "export ".toList <+: key
  · rw [if_pos hexport]
    obtain ⟨key', rfl⟩ := hexport
    have hword : ("export ".toList ++ key').rdropWhile isWhitespace =
        "expor".toList ++ 't' :: (' ' :: key').rdropWhile isWhitespace :=
      Words.rdropWhile_append_cons (by decide) "expor".toList (' ' :: key')
    have hkey : (("export ".toList ++ key').drop 7) = key' := rfl
    rw [hkey, hword]
    by_cases hwhite : ∀ c ∈ key', isWhitespace c = true
    · -- Without a key `export` is the key.
      have hnil : (' ' :: key').rdropWhile isWhitespace = [] := by
        refine List.rdropWhile_eq_nil_iff.2 fun c hc => ?_
        rcases List.mem_cons.1 hc with rfl | hc
        · decide
        · exact hwhite c hc
      rw [hnil, List.dropWhile_eq_nil_iff.2 hwhite]
      decide
    · push Not at hwhite
      obtain ⟨c, hc, hsolid⟩ := hwhite
      obtain ⟨a, b, rfl⟩ := List.append_of_mem hc
      have hdrop : (' ' :: (a ++ c :: b)).rdropWhile isWhitespace =
          ' ' :: (a ++ c :: b).rdropWhile isWhitespace := by
        rw [Words.rdropWhile_append_cons hsolid]
        exact Words.rdropWhile_append_cons hsolid (' ' :: a) b
      have hprefix : "export ".toList <+: "expor".toList ++
          't' :: ' ' :: (a ++ c :: b).rdropWhile isWhitespace := List.prefix_append _ _
      rw [hdrop, if_pos hprefix]
      show trimmed (a ++ c :: b) = token ↔
        ((a ++ c :: b).rdropWhile isWhitespace).dropWhile isWhitespace = token
      rw [dropWhile_rdropWhile]
  · rw [if_neg hexport, if_neg fun h => hexport (h.trans (List.rdropWhile_prefix _ _))]

theorem subset_stripExport (t : List Char) : stripExport t ⊆ t := by
  unfold stripExport
  split_ifs
  · exact fun c hc => List.mem_of_mem_drop ((List.dropWhile_suffix _).subset hc)
  · exact List.Subset.refl t

theorem head?_dropWhile {c : Char} (h : (line.dropWhile isWhitespace).head? = some c) :
    isWhitespace c = false := isWhitespace_of_head?_trimmed (by rwa [head?_trimmed])

/-- A comment is no line of the token. -/
theorem stripExport_comment (cs : List Char) :
    stripExport (('#' :: cs).rdropWhile isWhitespace) ≠ token := by
  have hhash : ('#' :: cs).rdropWhile isWhitespace = '#' :: cs.rdropWhile isWhitespace :=
    Words.rdropWhile_append_cons (by decide) [] cs
  rw [hhash]
  intro h
  cases h

/-- The setting of a line with an `=`. -/
theorem setting_eq (hline : line.dropWhile isWhitespace = key ++ '=' :: rest) (hkey : '=' ∉ key) :
    setting line = if key.head? = some '#' then none else
      some (trimmed key, trimMatches '\'' (trimMatches '"' (trimmed rest))) := by
  have hsolid : ¬ isWhitespace '=' = true := by decide
  have htrimmed : trimmed line = key ++ '=' :: rest.rdropWhile isWhitespace := by
    rw [trimmed, hline, Words.rdropWhile_append_cons hsolid]
  have hhead : (trimmed line).head? = some '#' ↔ key.head? = some '#' := by
    rw [htrimmed]
    cases key <;> simp
  have hequals : ∀ c ∈ key, decide (c = '=') = false := by
    intro c hc
    rw [decide_eq_false_iff_not]
    rintro rfl
    exact hkey hc
  simp only [setting, hhead]
  rw [htrimmed, Words.splitOnce_append_cons hequals rfl]
  simp [trimmed_rdropWhile]

theorem splitOnce_equals (h : '=' ∉ line) : Words.splitOnce (· = '=') line = none := by
  refine Words.splitOnce_of_none fun c hc => decide_eq_false ?_
  rintro rfl
  exact h hc

theorem setting_of_notMem (h : '=' ∉ line.dropWhile isWhitespace) : setting line = none := by
  have hnone := splitOnce_equals fun hmem => h ((List.rdropWhile_prefix isWhitespace _).subset hmem)
  rw [← trimmed] at hnone
  simp only [setting, hnone, ite_self]

/-- The scrubber takes a line as one of the token when the loader does, or would do it without an
`export`. -/
theorem isBootstrapTokenLine_iff : isBootstrapTokenLine line = true ↔
    ∃ s, setting line = some s ∧ stripExport s.1 = token := by
  by_cases hmem : '=' ∈ line.dropWhile isWhitespace
  · obtain ⟨key, rest, hline, hkey⟩ := List.eq_append_cons_of_mem hmem
    have hequals : ∀ c ∈ stripExport key, decide (c = '=') = false := by
      intro c hc
      rw [decide_eq_false_iff_not]
      rintro rfl
      exact hkey (subset_stripExport _ hc)
    have hboot : isBootstrapTokenLine line = true ↔
        stripExport (key.rdropWhile isWhitespace) = token := by
      rw [isBootstrapTokenLine, hline, stripExport_append, Words.splitOnce_append_cons hequals rfl,
        decide_eq_true_iff]
      exact stripExport_rdropWhile key
    rw [hboot, setting_eq hline hkey]
    rcases key with - | ⟨c, key⟩
    · simp [trimmed]
    · have hc : isWhitespace c = false := head?_dropWhile (by rw [hline]; rfl)
      have hdrop : (c :: key).dropWhile isWhitespace = c :: key :=
        List.dropWhile_cons_of_neg (by simp [hc])
      by_cases hhash : c = '#'
      · subst hhash
        simpa using stripExport_comment key
      · simp [hhash, trimmed, hdrop]
  · rw [setting_of_notMem hmem, isBootstrapTokenLine,
      splitOnce_equals fun h => hmem (subset_stripExport _ h)]
    simp

/-! ## The text that is left -/

theorem setting_stripCr (line : List Char) : setting (stripCr line) = setting line := by
  rw [setting, setting, trimmed_stripCr]

/-- A reader of lines that does not see carriage returns at their ends and passes over empty lines
reads the lines that were joined. -/
theorem filterMap_linesOf_rejoined {α : Type} {f : List Char → Option α}
    (hcr : ∀ line, f (stripCr line) = f line) (hnil : f [] = none)
    (hlines : ∀ line ∈ lines, '\n' ∉ line) :
    (linesOf (rejoined content lines)).filterMap f = lines.filterMap f := by
  have hmap (ls : List (List Char)) : (ls.map stripCr).filterMap f = ls.filterMap f := by
    rw [List.filterMap_map]
    exact List.filterMap_congr fun line _ => hcr line
  rcases List.eq_nil_or_concat lines with rfl | ⟨init, last, rfl⟩
  · unfold rejoined
    split_ifs
    · show [([] : List Char)].filterMap f = []
      simp [hnil]
    · rfl
  · have hinit : ∀ line ∈ init, '\n' ∉ line := fun line h => hlines line (by simp [h])
    have hlast : '\n' ∉ last := hlines last (by simp)
    rw [rejoined, List.concat_eq_append, intercalate_newline_concat, List.append_assoc,
      linesOf_unlines_append hinit, List.filterMap_append, List.filterMap_append, hmap]
    congr 1
    split_ifs
    · rw [linesOf_append_newline hlast, linesOf_nil]
      exact hmap [last]
    · rw [List.append_nil, linesOf_of_notMem hlast]
      split_ifs with hempty
      · simp [hempty, hnil]
      · rfl

theorem settings_rejoined (hlines : ∀ line ∈ lines, '\n' ∉ line) :
    settings (rejoined content lines) = lines.filterMap setting :=
  filterMap_linesOf_rejoined setting_stripCr rfl hlines

/-- The lines that are kept have the other settings. -/
theorem filterMap_kept (lines : List (List Char)) :
    (lines.filter fun line => !isBootstrapTokenLine line).filterMap setting =
      (lines.filterMap setting).filter isOther := by
  induction lines with
  | nil => rfl
  | cons line lines ih =>
    by_cases htoken : isBootstrapTokenLine line = true
    · obtain ⟨s, hs, hkey⟩ := isBootstrapTokenLine_iff.1 htoken
      have hother : ¬ isOther s = true := by simp [isOther, hkey]
      rw [List.filter_cons_of_neg (by simp [htoken]), List.filterMap_cons_some hs,
        List.filter_cons_of_neg hother, ih]
    · rw [List.filter_cons_of_pos (by simp [htoken])]
      cases hs : setting line with
      | none => rw [List.filterMap_cons_none hs, List.filterMap_cons_none hs, ih]
      | some s =>
        have hother : isOther s = true := by
          rw [isOther, decide_eq_true_iff]
          exact fun hkey => htoken (isBootstrapTokenLine_iff.2 ⟨s, hs, hkey⟩)
        rw [List.filterMap_cons_some hs, List.filterMap_cons_some hs,
          List.filter_cons_of_pos hother, ih]

/-- The settings of a text are the others when it has no line of the token. -/
theorem filter_isOther (h : ∀ line ∈ lines, ¬ isBootstrapTokenLine line = true) :
    (lines.filterMap setting).filter isOther = lines.filterMap setting := by
  rw [← filterMap_kept, List.filter_eq_self.2 fun line hline => by simp [h line hline]]

theorem settings_scrub (content : List Char) :
    settings (scrubBootstrapToken content) = (settings content).filter isOther := by
  unfold scrubBootstrapToken
  split_ifs with hany
  · rw [settings_rejoined, filterMap_kept, settings]
    exact fun line hline => newline_notMem_of_mem_linesOf (List.mem_of_mem_filter hline)
  · rw [List.any_eq_true] at hany
    push Not at hany
    exact (filter_isOther hany).symm

/-- No line of the token is left. -/
theorem any_scrub (content : List Char) :
    (linesOf (scrubBootstrapToken content)).any isBootstrapTokenLine = false := by
  rw [List.any_eq_false]
  intro line hline htoken
  obtain ⟨s, hs, hkey⟩ := isBootstrapTokenLine_iff.1 htoken
  have hmem : s ∈ settings (scrubBootstrapToken content) := List.mem_filterMap.2 ⟨line, hline, hs⟩
  rw [settings_scrub] at hmem
  simpa [isOther, hkey] using (List.mem_filter.1 hmem).2

theorem scrub_scrub (content : List Char) :
    scrubBootstrapToken (scrubBootstrapToken content) = scrubBootstrapToken content := by
  rw [scrubBootstrapToken.eq_1 (scrubBootstrapToken content), any_scrub,
    if_neg Bool.false_ne_true]

/-! ## The variables of the process -/

/-- Without the settings of the token, the variables are set as before, and that one is left. -/
theorem setVars_filter {vars' : Env} (h : setVars env l = some vars)
    (henv : ∀ key, stripExport key ≠ token → vars' key = env key) :
    ∃ new, setVars vars' (l.filter isOther) = some new ∧
      ∀ key, new key = if stripExport key ≠ token then vars key else vars' key := by
  induction l generalizing env vars' with
  | nil =>
    obtain rfl := Option.some.inj h
    refine ⟨vars', rfl, fun key => ?_⟩
    split_ifs with hkey
    · exact henv key hkey
    · rfl
  | cons s rest ih =>
    by_cases hother : stripExport s.1 = token
    · -- The setting is dropped, and changes no other variable in the old run.
      rw [List.filter_cons_of_neg (by simp [isOther, hother])]
      rw [setVars] at h
      split_ifs at h
      · exact ih h henv
      · refine ih h fun key hkey => ?_
        rw [Function.update_of_ne, henv key hkey]
        rintro rfl
        exact hkey hother
    · rw [List.filter_cons_of_pos (by simp [isOther, hother]), setVars, henv s.1 hother]
      rw [setVars] at h
      split_ifs at h ⊢
      · exact ih h henv
      · have hupdate : ∀ key, stripExport key ≠ token →
            Function.update vars' s.1 (some s.2) key = Function.update env s.1 (some s.2) key := by
          intro key hkey
          by_cases hname : key = s.1
          · rw [hname, Function.update_self, Function.update_self]
          · rw [Function.update_of_ne hname, Function.update_of_ne hname, henv key hkey]
        obtain ⟨new, hnew, hvars⟩ := ih h hupdate
        refine ⟨new, hnew, fun key => ?_⟩
        rw [hvars key]
        split_ifs with hkey
        · rfl
        · refine Function.update_of_ne ?_ _ _
          rintro rfl
          exact hkey hother

/-! ## The law -/

/-- The scrubber and the loader agree on the lines of the token, whatever the file. -/
theorem scrub_law (content : List Char) : ScrubLaw content := by
  refine ⟨fun s hs => ?_, settings_scrub content, fun env vars h => ?_, scrub_scrub content⟩
  · rw [settings_scrub] at hs
    have hother := (List.mem_filter.1 hs).2
    rintro hkey
    rw [isOther, hkey] at hother
    revert hother
    decide
  · rw [loadEnvFile, settings_scrub]
    exact setVars_filter h fun _ _ => rfl

/-- A token in any of the ways it can be written, between other settings. -/
example : scrubBootstrapToken
    "A=1\n export  TENODERA_BOOTSTRAP_TOKEN = x\n# TENODERA_BOOTSTRAP_TOKEN=\nB=2".toList =
      "A=1\n# TENODERA_BOOTSTRAP_TOKEN=\nB=2".toList := by decide +kernel

end

end Tenodera.Agent.EnvFile

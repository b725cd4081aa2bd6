import Tenodera.Agent.GrepOutput
import Tenodera.Agent.Networking
import Tenodera.Agent.ShellScripts
import Tenodera.Lib.Columns
import Tenodera.Lib.Trim

/-!
# The owners of sockets

`parse_ss_line` reads the name and the id of a process out of a line of `ss`, in which the name
stands as the program has chosen it.  A quote ends the name, and a `pid=` in it counts as the id
that is signalled: `socket_law_iff`.
-/

namespace Tenodera.Agent.SocketLines

open Text Utf8 Protocol Effect Host

/-! ## Parsing -/

/-- What `list_ports` shows of a socket. -/
structure Port where
  proto : List Char
  state : List Char
  «local» : List Char
  address : List Char
  port : ℕ
  process : List Char
  pid : ℕ
  deriving DecidableEq

/-- `str::trim_matches` with the brackets of an IPv6 address. -/
def trimBrackets (cs : List Char) : List Char :=
  (cs.dropWhile fun c => c = '[' || c = ']').rdropWhile fun c => c = '[' || c = ']'

/-- `split_hostport`: at the last colon. -/
def splitHostport (s : List Char) : List Char × ℕ :=
  match rsplitOnce s ':' with
  | some (addr, port) => (trimBrackets addr, (parseUnsigned 32 (String.ofList port)).getD 0)
  | none => (s, 0)

/-- The digits behind `pid=`. -/
def readPid (s : List Char) : ℕ :=
  (parseUnsigned 64 (String.ofList ((s.drop 4).takeWhile Char.isDigit))).getD 0

def pidKey : List Char := "pid=".toList

/-- `parse_proc`. -/
def parseProc (s : List Char) : List Char × ℕ :=
  let name := (Words.splitOnce (· = '"') s).bind fun a =>
    (Words.splitOnce (· = '"') a.2).map Prod.fst
  (name.getD [], ((splitFound pidKey s).map fun a => readPid a.2).getD 0)

def usersKey : List Char := "users:((".toList

/-- `parse_ss_line`. -/
def parseSsLine (line : List Char) : Option Port :=
  let t := trimmed line
  match Words.words isWhitespace t with
  | proto :: state :: _ :: _ :: «local» :: _ =>
    let (address, port) := splitHostport «local»
    let (process, pid) :=
      match splitFound usersKey t with
      | some (_, s) => parseProc s
      | none => ([], 0)
    some ⟨proto, state, «local», address, port, process, pid⟩
  | _ => none

/-! ## What ss prints -/

/-- A process that holds a socket. -/
structure Owner where
  name : List Char
  pid : UInt64
  fd : ℕ

/-- `("name",pid=1,fd=2)`. -/
def Owner.text (o : Owner) : List Char :=
  '(' :: '"' :: (o.name ++ '"' :: ',' :: (pidKey ++ (Nat.toDigits 10 o.pid.toNat ++
    ',' :: ("fd=".toList ++ Nat.toDigits 10 o.fd ++ [')']))))

/-- A socket with the processes that hold it. -/
structure Socket where
  netid : List Char
  state : List Char
  recvQ : List Char
  sendQ : List Char
  «local» : List Char
  peer : List Char
  owner : Owner
  others : List Owner
  /-- The spaces behind a column that are not the first one. -/
  pad : ℕ → ℕ
  columns_solid : ∀ f ∈ [netid, state, recvQ, sendQ, «local», peer], IsColumn f
  /-- The columns are numbers, names of the system and addresses. -/
  columns_clear : ∀ f ∈ [netid, state, recvQ, sendQ, «local», peer], ¬ usersKey <:+: f

def Socket.columns (s : Socket) : List (List Char) :=
  [s.netid, s.state, s.recvQ, s.sendQ, s.local, s.peer]

/-- The line of `ss -tulpnH`. -/
def Socket.line (s : Socket) : List Char :=
  padded s.pad s.columns ++ ("users:(".toList ++ (s.owner.text ++
    (s.others.flatMap (fun o => ',' :: o.text) ++ [')'])))

/-! ## The law of the two -/

/-- The name and the id that are shown are those of the process. -/
def SocketLaw (s : Socket) : Prop :=
  ∃ p, parseSsLine s.line = some p ∧ p.process = s.owner.name ∧ p.pid = s.owner.pid.toNat

/-- The name has no quote, and what it gives for an id is the id. -/
structure Fits (o : Owner) : Prop where
  quote : '"' ∉ o.name
  pid : ∀ s, splitFound pidKey o.name = some s → readPid s.2 = o.pid.toNat

section

variable {s : Socket} {o : Owner} {rest cs : List Char}

/-! ## The owner -/

theorem takeWhile_digits {c : Char} (hc : c.isDigit = false) (cs rest : List Char) :
    (cs ++ c :: rest).takeWhile Char.isDigit = cs.takeWhile Char.isDigit := by
  induction cs with
  | nil => simp [hc]
  | cons d cs ih =>
    rw [List.cons_append, List.takeWhile_cons, List.takeWhile_cons, ih]

theorem readPid_append {c : Char} (hc : c.isDigit = false) (h : pidKey <+: cs) (rest : List Char) :
    readPid (cs ++ c :: rest) = readPid cs := by
  obtain ⟨cs, rfl⟩ := h
  have hdrop (l : List Char) : (pidKey ++ l).drop 4 = l := rfl
  rw [readPid, readPid, List.append_assoc, hdrop, hdrop, takeWhile_digits hc]

theorem readPid_digits (pid : UInt64) :
    readPid (pidKey ++ Nat.toDigits 10 pid.toNat) = pid.toNat := by
  have hdigits : (Nat.toDigits 10 pid.toNat).takeWhile Char.isDigit = Nat.toDigits 10 pid.toNat :=
    List.takeWhile_eq_self_iff.2 fun c hc => GrepOutput.digit_of_mem_toDigits hc
  show (parseUnsigned 64 (String.ofList ((Nat.toDigits 10 pid.toNat).takeWhile _))).getD 0 = _
  rw [hdigits, GrepOutput.parseUnsigned_toDigits, Option.getD_some]

/-- The name ends at the first quote. -/
theorem process_parseProc_iff (o : Owner) (rest : List Char) :
    (parseProc (usersKey ++ '"' :: (o.name ++ '"' :: rest))).1 = o.name ↔ '"' ∉ o.name := by
  have hquote {l : List Char} (hl : '"' ∉ l) : ∀ c ∈ l, decide (c = '"') = false := by
    intro c hc
    rw [decide_eq_false_iff_not]
    rintro rfl
    exact hl hc
  have hfirst := Words.splitOnce_append_cons (p := (· = '"')) (a := '"') (l := usersKey)
    (hquote (by decide)) rfl (o.name ++ '"' :: rest)
  simp only [parseProc, hfirst, Option.bind_some]
  by_cases hmem : '"' ∈ o.name
  · obtain ⟨a, b, hname, ha⟩ := List.eq_append_cons_of_mem hmem
    have hsplit := Words.splitOnce_append_cons (hquote ha) (a := '"') rfl (b ++ '"' :: rest)
    refine iff_of_false (fun h => ?_) (not_not.2 hmem)
    rw [hname, List.append_assoc, List.cons_append, hsplit] at h
    simp at h
  · have hsplit := Words.splitOnce_append_cons (hquote hmem) (a := '"') rfl rest
    rw [hsplit]
    exact iff_of_true rfl hmem

/-- The id is read behind the first `pid=`, which may be in the name. -/
theorem pid_parseProc (o : Owner) (rest : List Char) : (parseProc (usersKey ++ '"' ::
    (o.name ++ '"' :: ',' :: (pidKey ++ (Nat.toDigits 10 o.pid.toNat ++ ',' :: rest))))).2 =
      ((splitFound pidKey o.name).map fun s => readPid s.2).getD o.pid.toNat := by
  have hquote : '"' ∉ pidKey ∧ ',' ∉ pidKey ∧ pidKey ≠ [] := by decide
  have husers : ¬ pidKey <:+: usersKey := by decide +kernel
  rw [parseProc]
  dsimp only
  rw [splitFound_append_cons hquote.1 hquote.2.2 husers, Option.map_map]
  cases hname : splitFound pidKey o.name with
  | some s =>
    rw [splitFound_append_left hname, Option.map_some, Option.map_some, Option.getD_some,
      Option.getD_some]
    exact readPid_append (by decide) (splitFound_eq_some_iff.1 hname).2.1 _
  | none =>
    have hfree : ¬ pidKey <:+: [] := by decide
    have hhere : splitFound pidKey (pidKey ++ (Nat.toDigits 10 o.pid.toNat ++ ',' :: rest)) =
        some ([], pidKey ++ (Nat.toDigits 10 o.pid.toNat ++ ',' :: rest)) :=
      (splitFound_key_iff (by decide) [] _).2 (by decide)
    have hcomma := splitFound_append_cons hquote.2.1 hquote.2.2 hfree
      (pidKey ++ (Nat.toDigits 10 o.pid.toNat ++ ',' :: rest))
    rw [List.nil_append] at hcomma
    rw [splitFound_append_cons hquote.1 hquote.2.2 (splitFound_eq_none_iff.1 hname), hcomma, hhere]
    simp only [Option.map_some, Option.map_none, Option.getD_some, Option.getD_none,
      Function.comp_apply]
    rw [← List.append_assoc, readPid_append (by decide) (List.prefix_append _ _), readPid_digits]

/-! ## The line -/

/-- What stands behind the columns. -/
theorem line_eq (s : Socket) : ∃ rest, s.line = padded s.pad s.columns ++ (usersKey ++ '"' ::
    (s.owner.name ++ '"' :: ',' :: (pidKey ++ (Nat.toDigits 10 s.owner.pid.toNat ++
      ',' :: (rest ++ [')']))))) := by
  have husers : usersKey = "users:(".toList ++ ['('] := rfl
  refine ⟨"fd=".toList ++ (Nat.toDigits 10 s.owner.fd ++
    (')' :: (s.others.flatMap fun o : Owner => ',' :: o.text))), ?_⟩
  rw [Socket.line, Owner.text, husers]
  simp only [List.append_assoc, List.cons_append, List.nil_append]

theorem trimmed_line (s : Socket) : trimmed s.line = s.line := by
  obtain ⟨rest, hline⟩ := line_eq s
  obtain ⟨hne, hsolid⟩ := s.columns_solid s.netid List.mem_cons_self
  obtain ⟨c, netid, hnetid⟩ := List.exists_cons_of_ne_nil hne
  refine trimmed_eq_self ?_ ?_
  · rw [hline, Socket.columns, hnetid]
    intro d hd
    cases Option.some.inj hd
    exact hsolid c (by simp [hnetid])
  · have hlast : s.line.getLast? = some ')' := by
      rw [hline]
      simp [List.getLast?_append, List.getLast?_cons]
    rw [hlast]
    intro d hd
    cases Option.some.inj hd
    decide

/-- The owner is read behind the columns, whatever is in its name. -/
theorem splitFound_line (h : s.line = padded s.pad s.columns ++ (usersKey ++ rest)) :
    splitFound usersKey s.line = some (padded s.pad s.columns, usersKey ++ rest) := by
  have hclear : ¬ usersKey <:+: padded s.pad s.columns := by
    have hiff : usersKey <:+: padded s.pad s.columns ++ [] ↔
        (∃ f ∈ s.columns, usersKey <:+: f) ∨ usersKey <:+: [] :=
      infix_padded_iff (by decide) (by decide)
    rw [List.append_nil] at hiff
    rw [hiff, not_or]
    exact ⟨fun ⟨f, hf, hin⟩ => s.columns_clear f hf hin, by decide⟩
  have hkey : usersKey = 'u' :: "sers:((".toList := rfl
  rw [h]
  rw [hkey] at hclear ⊢
  exact (splitFound_key_iff (by decide) _ _).2 hclear

theorem parseSsLine_line (h : s.line = padded s.pad s.columns ++ (usersKey ++ rest)) :
    ∃ p, parseSsLine s.line = some p ∧ p.process = (parseProc (usersKey ++ rest)).1 ∧
      p.pid = (parseProc (usersKey ++ rest)).2 := by
  have hwords : Words.words isWhitespace s.line =
      s.columns ++ Words.words isWhitespace (usersKey ++ rest) := by
    rw [h]
    exact words_padded s.columns_solid _
  rw [parseSsLine, trimmed_line, hwords, splitFound_line h]
  exact ⟨_, rfl, rfl, rfl⟩

/-! ## The law -/

/-- The owner of a socket is shown, and signalled, exactly when its name fits. -/
theorem socket_law_iff (s : Socket) : SocketLaw s ↔ Fits s.owner := by
  obtain ⟨rest, hline⟩ := line_eq s
  obtain ⟨p, hp, hprocess, hpid⟩ := parseSsLine_line hline
  have hname := process_parseProc_iff s.owner
    (',' :: (pidKey ++ (Nat.toDigits 10 s.owner.pid.toNat ++ ',' :: (rest ++ [')']))))
  have hid := pid_parseProc s.owner (rest ++ [')'])
  have hlaw : SocketLaw s ↔ p.process = s.owner.name ∧ p.pid = s.owner.pid.toNat := by
    rw [SocketLaw, hp]
    simp
  have hfits : ((splitFound pidKey s.owner.name).map fun s => readPid s.2).getD s.owner.pid.toNat =
      s.owner.pid.toNat ↔
        ∀ found, splitFound pidKey s.owner.name = some found →
          readPid found.2 = s.owner.pid.toNat := by
    cases splitFound pidKey s.owner.name <;> simp
  rw [hlaw, hprocess, hpid, hname, hid, hfits]
  exact ⟨fun h => ⟨h.1, h.2⟩, fun h => ⟨h.quote, h.pid⟩⟩

/-- A socket of a program that has given itself the id of another one. -/
def disguised : Socket where
  netid := "tcp".toList
  state := "LISTEN".toList
  recvQ := "0".toList
  sendQ := "128".toList
  «local» := "0.0.0.0:4444".toList
  peer := "0.0.0.0:*".toList
  owner := ⟨"x pid=800".toList, 4242, 3⟩
  others := []
  pad := fun _ => 2
  columns_solid := by decide
  columns_clear := by decide +kernel

/-- The other process is the one that would be signalled. -/
theorem disguised_misread : ¬ SocketLaw disguised := by
  have hread : (parseSsLine disguised.line).map Port.pid = some 800 := by decide +kernel
  rintro ⟨p, hp, -, hpid⟩
  rw [hp, Option.map_some, hpid] at hread
  revert hread
  decide

/-! ## The signal -/

/-- What `kill_process` runs: the id is the one it is given. -/
theorem asks_killProcess_iff {user password signal : String} {pid : ℕ} {c : Command} :
    (killProcess user password pid signal).Asks (.run c) ↔
      1 < pid ∧ Text.hasNul user = false ∧
        c = ⟨some user, ["sudo", "-S", "-k", "kill",
          "-" ++ (if signal ∈ ["KILL", "TERM", "HUP", "INT"] then signal else "TERM"),
          decimal pid], some (password ++ "\n")⟩ := by
  set sig := if signal ∈ ["KILL", "TERM", "HUP", "INT"] then signal else "TERM" with hsig
  have hnul : Text.hasNul sig = false := by
    rw [hsig]
    split_ifs with hmem
    · have hall : ∀ name ∈ ["KILL", "TERM", "HUP", "INT"], Text.hasNul name = false := by decide
      exact hall signal hmem
    · decide
  have hargs : ["kill", "-" ++ sig, decimal pid].any Text.hasNul = false := by
    have hdash : Text.hasNul ("-" ++ sig) = false := by
      rw [hasNul_append, hnul]
      decide
    have hkill : Text.hasNul "kill" = false := by decide
    simp [hkill, hdash, hasNul_decimal]
  unfold killProcess
  dsimp only
  rw [← hsig]
  by_cases hpid : pid ≤ 1
  · rw [if_pos hpid]
    exact iff_of_false id fun h => absurd h.1 (by omega)
  · rw [if_neg hpid, Prog.asks_bind, asks_sudoAsUser_iff, hargs, or_iff_left]
    · simp [Nat.lt_of_not_le hpid]
    · rintro ⟨res, -, h⟩
      rw [Prog.asks_bind] at h
      rcases h with h | ⟨-, -, h⟩
      · cases (Prog.asks_perform _ _).1 h
      · exact h

end

end Tenodera.Agent.SocketLines

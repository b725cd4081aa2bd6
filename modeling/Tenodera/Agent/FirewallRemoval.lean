import Tenodera.Agent.FirewallRules
import Tenodera.Agent.GrepOutput
import Tenodera.Lib.Columns
import Tenodera.Lib.Keyed
import Tenodera.Lib.Trim

/-!
# Removing firewall rules

What each backend's listing is, row by row, and what the command of a row does.  `removal_law_iff`
says for which rule sets the command takes away the rule that the row was read from, and nothing
else.
-/

namespace Tenodera.Agent.FirewallRules

open Protocol Host Text

/-! ## The command -/

section

variable {rules : Rules} {place : Place} {row : Value} {backend : FirewallBackend} {name : String}
  {argv : List String}

theorem networkDispatch_removeRequest (hrow : row.get "backend" = some (.string name))
    (hname : parseBackend name = some backend) (u : Alphanumeric) (user password : String) :
    networkDispatch u (removeRequest user password row) =
      removeRuleFrom user password row (some backend) := by
  have haction : strField (removeRequest user password row) "action" = "firewall_remove_rule" := rfl
  have huser : strField (removeRequest user password row) "_user" = user := rfl
  have hpassword : strField (removeRequest user password row) "password" = password := rfl
  have hrule : ruleField (removeRequest user password row) = row := rfl
  have hbackend : ruleBackend (removeRequest user password row) = some backend := by
    have hget : (removeRequest user password row).get "backend" = some (.string name) := by
      show some ((row.get "backend").getD .null) = _
      rw [hrow]
      rfl
    rw [ruleBackend, hget]
    exact hname
  unfold networkDispatch
  simp only [haction, huser, hpassword, hrule, hbackend]
  rfl

/-- A row that leads to a command is removed as the command says. -/
theorem removes_iff (hrow : row.get "backend" = some (.string name))
    (hname : parseBackend name = some backend)
    (hcmd : ∀ user password, removeRuleFrom user password row (some backend) =
      sudoAsUser user password argv)
    (hargs : argv.any hasNul = false) :
    Removes rules (some place) row ↔ rules.exec argv = rules.erase place := by
  have hasks (u : Alphanumeric) (user password : String) (hu : hasNul user = false) (c : Command) :
      (networkDispatch u (removeRequest user password row)).Asks (.run c) ↔
        c = ⟨some user, "sudo" :: "-S" :: "-k" :: argv, some (password ++ "\n")⟩ := by
    rw [networkDispatch_removeRequest hrow hname, hcmd, asks_sudoAsUser_iff,
      and_iff_right ⟨hu, hargs⟩]
  constructor
  · rintro ⟨p, hp, h⟩
    cases hp
    obtain ⟨argv', hasks', hexec⟩ := h asciiAlphanumeric "" "" (by decide)
    have hsame := (hasks' _).1 ((hasks asciiAlphanumeric "" "" (by decide) _).2 rfl)
    rw [Command.mk.injEq, List.cons.injEq, List.cons.injEq, List.cons.injEq] at hsame
    rwa [hsame.2.1.2.2.2]
  · exact fun h => ⟨place, rfl, fun u user password hu => ⟨argv, hasks u user password hu, h⟩⟩

/-- A row that leads to no command is not removed. -/
theorem not_removes (hrow : row.get "backend" = some (.string name))
    (hname : parseBackend name = some backend)
    (hcmd : ∀ user password c, ¬ (removeRuleFrom user password row (some backend)).Asks (.run c))
    (place : Option Place) : ¬ Removes rules place row := by
  rintro ⟨p, -, h⟩
  obtain ⟨argv, hasks, -⟩ := h asciiAlphanumeric "" "" (by decide)
  have hask := (hasks _).2 rfl
  rw [networkDispatch_removeRequest hrow hname] at hask
  exact hcmd _ _ _ hask

/-- Rows and rules go together, item by item. -/
theorem forall₂_removes_iff {α : Type} {items : List α} {placeOf : α → Option Place}
    {rowOf : α → Value} (hshown : rules.shown = items.map placeOf)
    (hrows : firewallRulesFor rules = items.map rowOf) :
    List.Forall₂ (Removes rules) rules.shown (firewallRulesFor rules) ↔
      ∀ x ∈ items, Removes rules (placeOf x) (rowOf x) := by
  rw [hshown, hrows, List.forall₂_map_left_iff, List.forall₂_map_right_iff, List.forall₂_same]

theorem any_hasNul_concat {args : List String} {arg : String} (hargs : args.any hasNul = false)
    (harg : hasNul arg = false) : (args ++ [arg]).any hasNul = false := by
  rw [List.any_append, hargs]
  simp [harg]

end

/-! ## Numbers -/

theorem isWhitespace_digits {c : Char} {n : ℕ} (h : c ∈ digits n) : isWhitespace c = false := by
  refine isWhitespace_of_isAlphanum ?_
  simp [Char.isAlphanum, GrepOutput.digit_of_mem_toDigits h]

theorem notMem_digits {c : Char} (n : ℕ) (h : c.isDigit = false) : c ∉ digits n :=
  GrepOutput.notMem_toDigits h

theorem notMem_spaces {c : Char} (n width : ℕ) (h : c ≠ ' ') : c ∉ spaces n width := by
  rintro hmem
  exact h (List.eq_of_mem_replicate hmem)

/-- A right aligned number has only blanks and digits. -/
theorem notMem_number {c : Char} (n width : ℕ) (hspace : c ≠ ' ') (hdigit : c.isDigit = false) :
    c ∉ spaces n width ++ digits n := by
  rw [List.mem_append, not_or]
  exact ⟨notMem_spaces n width hspace, notMem_digits n hdigit⟩

theorem isWhitespace_spaces {n width : ℕ} : ∀ c ∈ spaces n width, isWhitespace c = true := by
  intro c hc
  rw [List.eq_of_mem_replicate hc]
  decide

theorem trimmed_digits (n : ℕ) : trimmed (digits n) = digits n :=
  trimmed_eq_self (fun _ hc => isWhitespace_digits (List.mem_of_mem_head? hc))
    fun _ hc => isWhitespace_digits (List.mem_of_getLast? hc)

theorem trimmed_spaces_digits (n width : ℕ) : trimmed (spaces n width ++ digits n) = digits n := by
  rw [trimmed, List.dropWhile_append_of_pos isWhitespace_spaces]
  exact trimmed_digits n

/-- The number in the row of a rule at a position. -/
def shownNumber (i : ℕ) : ℕ := if i + 1 < 2 ^ 32 then i + 1 else 0

/-- Numbers of more than 32 bits are read as zero. -/
theorem parseNumber_digits {cs : List Char} {i : ℕ} (h : trimmed cs = digits (i + 1)) :
    parseNumber cs = shownNumber i := by
  rw [parseNumber, h, digits, GrepOutput.parseUnsigned_digits, shownNumber]
  split_ifs <;> rfl

theorem parseUnsigned_decimal {n : ℕ} (h : n < 2 ^ 64) :
    parseUnsigned 64 (decimal n) = some n := by
  rw [decimal, GrepOutput.parseUnsigned_digits, if_pos h]

theorem toNat_shownNumber (i : ℕ) : (UInt64.ofNat (shownNumber i)).toNat = shownNumber i := by
  rw [UInt64.toNat_ofNat', shownNumber]
  split_ifs with h
  · exact Nat.mod_eq_of_lt (by omega)
  · rfl

/-- The number of a row takes a rule away iff it has not too many bits. -/
theorem eraseNumber_eq_iff {α : Type} {l : List α} {i : ℕ} (hi : i < l.length) :
    eraseNumber (decimal (shownNumber i)) l = l.eraseIdx i ↔ i + 1 < 2 ^ 32 := by
  rw [shownNumber]
  split_ifs with hlt
  · rw [eraseNumber, parseUnsigned_decimal (by omega)]
    exact iff_of_true rfl hlt
  · have hzero : parseUnsigned 64 (decimal 0) = some 0 := by decide
    rw [eraseNumber, hzero, iff_false_right hlt]
    intro h
    have hlength := congrArg List.length h
    rw [List.length_eraseIdx_of_lt hi] at hlength
    dsimp only at hlength
    omega

theorem trimmed_spaces {cs l : List Char} (h : ∀ c ∈ l, isWhitespace c = true) :
    trimmed (l ++ cs) = trimmed cs := by
  rw [trimmed, List.dropWhile_append_of_pos h, trimmed]

/-- The rows of the lines, whatever their terminators. -/
theorem linesOf_unlines_filterMap {β : Type} {f : List Char → Option β} {ls : List (List Char)}
    (hls : ∀ l ∈ ls, '\n' ∉ l) (hf : ∀ l, f (stripCr l) = f l) :
    (linesOf (unlines ls)).filterMap f = ls.filterMap f := by
  rw [linesOf_unlines hls, List.filterMap_map]
  exact List.filterMap_congr fun l _ => hf l

/-! ## ufw -/

def ufwShown (rule : Rule × ℕ) : Value :=
  .object [("number", numberValue (shownNumber rule.2)),
    ("rule", .string (String.ofList (trimmed rule.1.text)))]

theorem ufwRow_ufwLine (rule : Rule × ℕ) : ufwRow (ufwLine rule) = some (ufwShown rule) := by
  have htrim : trimmed (ufwLine rule) =
      ('[' :: (spaces (rule.2 + 1) 2 ++ digits (rule.2 + 1))) ++
        ']' :: (' ' :: rule.1.text).rdropWhile isWhitespace := by
    rw [ufwLine]
    exact trimmed_cons_append (by decide) (by decide) _ _
  have hsplit : Words.splitOnce (· = ']') (trimmed (ufwLine rule)) =
      some ('[' :: (spaces (rule.2 + 1) 2 ++ digits (rule.2 + 1)),
        (' ' :: rule.1.text).rdropWhile isWhitespace) := by
    rw [htrim]
    refine Words.splitOnce_append_cons (fun c hc => decide_eq_false ?_) (by decide) _
    rintro rfl
    rcases List.mem_cons.1 hc with hc | hc
    · exact absurd hc (by decide)
    · exact notMem_number _ _ (by decide) (by decide) hc
  have hopen : ('[' :: (spaces (rule.2 + 1) 2 ++ digits (rule.2 + 1))).dropWhile (· = '[') =
      spaces (rule.2 + 1) 2 ++ digits (rule.2 + 1) := by
    rw [List.dropWhile_cons_of_pos (by decide)]
    refine List.dropWhile_eq_self_iff.2 fun hlt => ?_
    have hmem := List.getElem_mem hlt
    simp only [decide_eq_true_eq]
    intro heq
    rw [heq] at hmem
    exact notMem_number _ _ (by decide) (by decide) hmem
  have htext : trimmed ((' ' :: rule.1.text).rdropWhile isWhitespace) = trimmed rule.1.text := by
    rw [trimmed_rdropWhile]
    exact trimmed_spaces (l := [' ']) (List.forall_mem_singleton.2 (by decide))
  rw [ufwRow]
  dsimp only
  rw [if_pos (by rw [htrim]; rfl), hsplit, Option.map_some, hopen,
    parseNumber_digits (trimmed_spaces_digits _ _), htext]
  rfl

theorem parseUfwRules_ufwStatus (rules : List Rule) :
    parseUfwRules (ufwStatus rules) = rules.zipIdx.map ufwShown := by
  have hlines : ∀ l ∈ ufwHeader ++ rules.zipIdx.map ufwLine ++ [[]], '\n' ∉ l := by
    intro l hl
    rcases List.mem_append.1 hl with hl | hl
    · rcases List.mem_append.1 hl with hl | hl
      · have hheader : ∀ l ∈ ufwHeader, '\n' ∉ l := by decide
        exact hheader l hl
      · obtain ⟨rule, -, rfl⟩ := List.mem_map.1 hl
        have hspaces := notMem_spaces (c := '\n') (rule.2 + 1) 2 (by decide)
        have hdigits := notMem_digits (c := '\n') (rule.2 + 1) (by decide)
        simp [ufwLine, hspaces, hdigits, rule.1.line]
    · rw [List.mem_singleton.1 hl]
      decide
  have hheader : ufwHeader.filterMap ufwRow = [] := by decide +kernel
  have hlast : [[]].filterMap ufwRow = [] := by decide +kernel
  rw [parseUfwRules, ufwStatus, linesOf_unlines_filterMap hlines
    fun l => by rw [ufwRow, ufwRow, trimmed_stripCr], List.filterMap_append,
    List.filterMap_append, hheader, hlast, List.nil_append, List.append_nil, List.filterMap_map]
  rw [← List.filterMap_eq_map]
  exact List.filterMap_congr fun rule _ => ufwRow_ufwLine rule

theorem removes_ufw {rules : List Rule} {rule : Rule × ℕ} (h : rule ∈ rules.zipIdx) :
    Removes (.ufw rules) (some (.ufw rule.2)) (tagged "ufw" (ufwShown rule)) ↔
      rule.2 + 1 < 2 ^ 32 := by
  have hlt : rule.2 < rules.length := List.snd_lt_of_mem_zipIdx h
  have hnumber : ruleNumber (tagged "ufw" (ufwShown rule)) =
      some (decimal (shownNumber rule.2)) :=
    congrArg (fun n => some (decimal n)) (toNat_shownNumber _)
  have hcmd (user password : String) :
      removeRuleFrom user password (tagged "ufw" (ufwShown rule)) (some .ufw) =
        sudoAsUser user password ["ufw", "--force", "delete", decimal (shownNumber rule.2)] := by
    unfold removeRuleFrom
    rw [hnumber]
  have hfixed : ["ufw", "--force", "delete"].any hasNul = false := by decide
  rw [removes_iff rfl rfl hcmd (any_hasNul_concat hfixed (hasNul_decimal _)),
    ← eraseNumber_eq_iff hlt]
  exact ⟨Rules.ufw.inj, congrArg Rules.ufw⟩

/-! ## iptables -/

def iptablesShown (chain : List Char) (rule : Rule × ℕ) : Value :=
  .object [("chain", .string (String.ofList chain)), ("number", numberValue (shownNumber rule.2)),
    ("rule", .string (String.ofList (trimmed rule.1.text)))]

section

variable {chain : List Char} {ls : List (List Char)}

theorem iptablesRows_map_stripCr (chain : List Char) (ls : List (List Char)) :
    iptablesRows chain (ls.map stripCr) = iptablesRows chain ls := by
  induction ls generalizing chain with
  | nil => rfl
  | cons l ls ih =>
    rw [List.map_cons, iptablesRows, iptablesRows, trimmed_stripCr]
    split_ifs
    · exact ih _
    · exact ih _
    · split <;> rw [ih]

theorem trimmed_title (c : Chain) : trimmed c.title = c.title := by
  refine trimmed_eq_self (fun a ha => ?_) fun a ha => ?_
  · have hhead : 'C' = a := Option.some.inj ha
    rw [← hhead]
    decide
  · have htitle : c.title =
        "Chain ".toList ++ (c.name.text ++ ' ' :: '(' :: c.info.text) ++ [')'] := by
      simp [Chain.title]
    rw [htitle, List.getLast?_concat] at ha
    rw [← Option.some.inj ha]
    decide

theorem iptablesRows_title (c : Chain) : iptablesRows chain (c.title :: ls) =
    iptablesRows c.title ls := by
  rw [iptablesRows, trimmed_title]
  exact if_pos (List.prefix_append _ _)

theorem iptablesRows_iptablesLine (rule : Rule × ℕ) :
    iptablesRows chain (iptablesLine rule :: ls) =
      iptablesShown chain rule :: iptablesRows chain ls := by
  obtain ⟨d, ds, hdigits⟩ := List.exists_cons_of_ne_nil
    (show digits (rule.2 + 1) ≠ [] from Nat.toDigits_ne_nil)
  have hmem : d ∈ digits (rule.2 + 1) := by
    rw [hdigits]
    exact List.mem_cons_self
  have hd : d.isDigit = true := GrepOutput.digit_of_mem_toDigits hmem
  have hsolid : ∃ a ∈ spaces (rule.2 + 1) 4 ++ rule.1.text, ¬ isWhitespace a = true := by
    obtain ⟨a, ha, hwhite⟩ := rule.1.solid
    exact ⟨a, List.mem_append_right _ ha, by simp [hwhite]⟩
  have htrim : trimmed (iptablesLine rule) = digits (rule.2 + 1) ++
      ' ' :: (spaces (rule.2 + 1) 4 ++ rule.1.text).rdropWhile isWhitespace := by
    have hwhite : ¬ isWhitespace d = true := by simp [isWhitespace_digits hmem]
    have hspace := Words.rdropWhile_append hsolid [' ']
    obtain ⟨a, ha, ha'⟩ := hsolid
    rw [trimmed, iptablesLine, hdigits, List.cons_append, List.dropWhile_cons_of_neg hwhite,
      ← List.cons_append, Words.rdropWhile_append ⟨a, List.mem_cons_of_mem _ ha, ha'⟩]
    exact congrArg (d :: ds ++ ·) hspace
  have hsplit : Words.splitOnce (· = ' ') (trimmed (iptablesLine rule)) =
      some (digits (rule.2 + 1),
        (spaces (rule.2 + 1) 4 ++ rule.1.text).rdropWhile isWhitespace) := by
    rw [htrim]
    refine Words.splitOnce_append_cons (fun c hc => decide_eq_false ?_) (by decide) _
    rintro rfl
    exact notMem_digits _ (by decide) hc
  have hfirst {word : List Char} (hword : word.head?.any (!·.isDigit) = true) :
      ¬ word <+: trimmed (iptablesLine rule) := by
    cases word with
    | nil => cases hword
    | cons c word =>
      rw [htrim, hdigits, List.cons_append, List.cons_prefix_cons]
      rintro ⟨rfl, -⟩
      simp [hd] at hword
  have htext : trimmed ((spaces (rule.2 + 1) 4 ++ rule.1.text).rdropWhile isWhitespace) =
      trimmed rule.1.text := by
    rw [trimmed_rdropWhile, trimmed_spaces isWhitespace_spaces]
  rw [iptablesRows, if_neg (hfirst (by decide)), if_neg, hsplit]
  · dsimp only
    rw [parseNumber_digits (trimmed_digits _), htext]
    rfl
  · rintro (hnum | hnil)
    · exact hfirst (by decide) hnum
    · rw [htrim, hdigits] at hnil
      cases hnil

theorem iptablesRows_lines (c : Chain × ℕ) (ls : List (List Char)) :
    iptablesRows chain (Chain.lines c ++ ls) =
      c.1.rules.zipIdx.map (iptablesShown c.1.title) ++ iptablesRows c.1.title ls := by
  have hblank (ls : List (List Char)) :
      iptablesRows chain ((if c.2 = 0 then [] else [[]]) ++ ls) = iptablesRows chain ls := by
    split_ifs
    · rfl
    · rw [List.singleton_append, iptablesRows]
      rfl
  have hnum (ls : List (List Char)) : iptablesRows c.1.title
      ("num  target     prot opt source               destination".toList :: ls) =
        iptablesRows c.1.title ls := by
    rw [iptablesRows, if_neg (by decide +kernel), if_pos (.inl (by decide +kernel))]
  have hrules (rules : List (Rule × ℕ)) (ls : List (List Char)) :
      iptablesRows c.1.title (rules.map iptablesLine ++ ls) =
        rules.map (iptablesShown c.1.title) ++ iptablesRows c.1.title ls := by
    induction rules with
    | nil => rfl
    | cons rule rules ih =>
      rw [List.map_cons, List.cons_append, iptablesRows_iptablesLine, ih, List.map_cons,
        List.cons_append]
  rw [Chain.lines, List.append_assoc, hblank, List.cons_append, iptablesRows_title,
    List.cons_append, hnum, hrules]

theorem newline_notMem_lines {c : Chain × ℕ} {l : List Char} (hl : l ∈ Chain.lines c) :
    '\n' ∉ l := by
  have hblank : ∀ l ∈ if c.2 = 0 then [] else [([] : List Char)], '\n' ∉ l := by
    split_ifs <;> simp
  rcases List.mem_append.1 hl with hl | hl
  · exact hblank l hl
  · rcases List.mem_cons.1 hl with rfl | hl
    · have hchain : '\n' ∉ "Chain ".toList := by decide
      simp [Chain.title, c.1.name.line, c.1.info.line, -String.reduceToList, hchain]
    · rcases List.mem_cons.1 hl with rfl | hl
      · decide
      · obtain ⟨rule, -, rfl⟩ := List.mem_map.1 hl
        have hspaces := notMem_spaces (c := '\n') (rule.2 + 1) 4 (by decide)
        have hdigits := notMem_digits (c := '\n') (rule.2 + 1) (by decide)
        simp [iptablesLine, hspaces, hdigits, rule.1.line]

/-- The chains with their rules, in the order in which they are printed. -/
def iptablesItems (chains : List Chain) : List ((Chain × ℕ) × (Rule × ℕ)) :=
  chains.zipIdx.flatMap fun c => c.1.rules.zipIdx.map fun r => (c, r)

theorem parseIptablesRules_iptablesList (chains : List Chain) :
    parseIptablesRules (iptablesList chains) =
      (iptablesItems chains).map fun x => iptablesShown x.1.1.title x.2 := by
  have hlines : ∀ l ∈ chains.zipIdx.flatMap Chain.lines, '\n' ∉ l := by
    intro l hl
    obtain ⟨c, -, hl⟩ := List.mem_flatMap.1 hl
    exact newline_notMem_lines hl
  have hchains (cs : List (Chain × ℕ)) : ∀ chain, iptablesRows chain (cs.flatMap Chain.lines) =
      (cs.flatMap fun c => c.1.rules.zipIdx.map fun r => (c, r)).map
        fun x => iptablesShown x.1.1.title x.2 := by
    induction cs with
    | nil => exact fun _ => rfl
    | cons c cs ih =>
      intro chain
      rw [List.flatMap_cons, iptablesRows_lines, ih, List.flatMap_cons, List.map_append,
        List.map_map]
      rfl
  rw [parseIptablesRules, iptablesList, linesOf_unlines hlines, iptablesRows_map_stripCr, hchains]
  rfl

/-- The chain of the command is the second word of the line of the chain. -/
theorem exists_chain_word (c : Chain) (rule : Rule × ℕ) :
    ∃ w, ((splitWhitespace (strField (tagged "iptables" (iptablesShown c.title rule))
        "chain"))[1]?).getD "INPUT" = String.ofList w ∧ '\x00' ∉ w ∧
      (c.name.text = w ↔ c.name.text ≠ [] ∧ ∀ a ∈ c.name.text, isWhitespace a = false) := by
  let tail := '(' :: (c.info.text ++ [')'])
  have hfield : strField (tagged "iptables" (iptablesShown c.title rule)) "chain" =
      String.ofList c.title := rfl
  have hwords : Words.words isWhitespace c.title =
      "Chain".toList ::
        (Words.words isWhitespace c.name.text ++ Words.words isWhitespace tail) := by
    have hchain : IsColumn "Chain".toList := by decide
    rw [← Words.words_append_sep c.name.text tail (a := ' ') (by decide)]
    exact Words.words_append_word hchain.1 hchain.2 (by decide) _
  have htail : Words.words isWhitespace tail ≠ [] := by
    intro hnil
    have hopen := Words.words_eq_nil_iff.1 hnil '(' List.mem_cons_self
    revert hopen
    decide
  obtain ⟨w, rest, hw⟩ := List.exists_cons_of_ne_nil
    (List.append_ne_nil_of_right_ne_nil (Words.words isWhitespace c.name.text) htail)
  have hmem : w ∈ Words.words isWhitespace c.title := by
    rw [hwords, hw]
    simp
  refine ⟨w, ?_, ?_, ?_⟩
  · have hsplit : splitWhitespace (String.ofList c.title) =
        (Words.words isWhitespace c.title).map String.ofList := by
      rw [splitWhitespace, String.toList_ofList]
      rfl
    rw [hfield, hsplit, hwords, hw]
    rfl
  · intro hnul
    have htitle := Words.subset_of_mem_words hmem hnul
    have hchain : '\x00' ∉ "Chain ".toList := by decide
    simp [Chain.title, c.name.nul, c.info.nul, -String.reduceToList, hchain] at htitle
  · constructor
    · rintro hname
      rw [hname]
      exact Words.of_mem_words hmem
    · rintro ⟨hne, hsolid⟩
      rw [Words.words_of_none hne hsolid] at hw
      exact (List.cons.inj hw).1

theorem erase_ne_self {c : Chain} {k : ℕ} (hk : k < c.rules.length) : c.erase k ≠ c := by
  intro h
  have hlength := congrArg (fun c => c.rules.length) h
  rw [Chain.erase, List.length_eraseIdx_of_lt hk] at hlength
  omega

theorem removes_iptables {chains : List Chain} {c : Chain × ℕ} {rule : Rule × ℕ}
    (hunique : (chains.map fun c => c.name.text).Nodup) (hc : c ∈ chains.zipIdx)
    (hrule : rule ∈ c.1.rules.zipIdx) :
    Removes (.iptables chains) (some (.iptables c.2 rule.2))
        (tagged "iptables" (iptablesShown c.1.title rule)) ↔
      (c.1.name.text ≠ [] ∧ ∀ a ∈ c.1.name.text, isWhitespace a = false) ∧
        rule.2 + 1 < 2 ^ 32 := by
  obtain ⟨w, hw, hnul, hname⟩ := exists_chain_word c.1 rule
  have hlt : rule.2 < c.1.rules.length := List.snd_lt_of_mem_zipIdx hrule
  have hget : chains[c.2]? = some c.1 := List.mem_zipIdx_iff_getElem?.1 hc
  have hnumber : ruleNumber (tagged "iptables" (iptablesShown c.1.title rule)) =
      some (decimal (shownNumber rule.2)) :=
    congrArg (fun n => some (decimal n)) (toNat_shownNumber _)
  have hcmd (user password : String) :
      removeRuleFrom user password (tagged "iptables" (iptablesShown c.1.title rule))
          (some .iptables) =
        sudoAsUser user password
          ["iptables", "-D", String.ofList w, decimal (shownNumber rule.2)] := by
    unfold removeRuleFrom
    rw [hnumber]
    dsimp only
    rw [hw]
  have hargs : ["iptables", "-D", String.ofList w, decimal (shownNumber rule.2)].any hasNul =
      false := by
    have hfixed : ["iptables", "-D"].any hasNul = false := by decide
    refine any_hasNul_concat (any_hasNul_concat hfixed ?_) (hasNul_decimal _)
    rw [hasNul_ofList]
    exact decide_eq_false hnul
  have hchain : Chain.mk c.1.name c.1.info
      (eraseNumber (decimal (shownNumber rule.2)) c.1.rules) = c.1.erase rule.2 ↔
        rule.2 + 1 < 2 ^ 32 := by
    rw [← eraseNumber_eq_iff hlt, Chain.erase, Chain.mk.injEq]
    simp
  rw [removes_iff rfl rfl hcmd hargs, ← hname, ← hchain]
  have hmap := Keyed.map_ite_eq_modify_iff (k := w) hunique hget
    (f := fun c => { c with rules := eraseNumber (decimal (shownNumber rule.2)) c.rules })
    (g := Chain.erase rule.2) (erase_ne_self hlt)
  rw [← hmap]
  simp only [Rules.exec, Rules.erase, String.toList_ofList, Rules.iptables.injEq]

end

/-! ## nftables -/

/-- The lines that are taken for rules. -/
def nftShown (tables : List NftTable) : List NftLine :=
  (nftLines tables).filter fun l => isNftRule l.1

theorem isNftRule_stripCr (l : List Char) : isNftRule (stripCr l) = isNftRule l := by
  have hcolumns : ∀ word ∈ nftWords, IsColumn word := by decide
  have hword : ∀ word ∈ nftWords, word <:+: stripCr l ↔ word <:+: l := by
    intro word hmem
    obtain ⟨hne, hsolid⟩ := hcolumns word hmem
    have hhead : ∀ c ∈ word.head?, isWhitespace c = false := fun c hc =>
      hsolid c (List.mem_of_mem_head? hc)
    have hlast : ∀ c ∈ word.getLast?, isWhitespace c = false := fun c hc =>
      hsolid c (List.mem_of_getLast? hc)
    rw [← infix_trimmed_iff hne hhead hlast, trimmed_stripCr, infix_trimmed_iff hne hhead hlast]
  unfold isNftRule
  rw [Bool.eq_iff_iff, List.any_eq_true, List.any_eq_true]
  refine exists_congr fun word => and_congr_right fun hmem => ?_
  rw [decide_eq_true_eq, decide_eq_true_eq, hword word hmem]

/-- What a line of a table is for is where it is said to be. -/
theorem mem_nftLines {tables : List NftTable} {text : List Char} {p : NftPlaced}
    (h : (text, some p) ∈ nftLines tables) :
    tables[p.t]? = some p.table ∧ p.table.chains[p.c]? = some p.chain ∧
      p.chain.rules[p.r]? = some p.rule := by
  obtain ⟨table, htable, h⟩ := List.mem_flatMap.1 h
  simp only [NftTable.lines, List.mem_append, List.mem_cons, List.mem_map, Prod.mk.injEq,
    reduceCtorEq, and_false, exists_false, or_false, false_or, List.mem_flatMap, List.not_mem_nil]
    at h
  obtain ⟨chain, hchain, h⟩ := h
  simp only [NftChain.lines, List.mem_append, List.mem_cons, List.mem_map, Prod.mk.injEq,
    reduceCtorEq, and_false, exists_false, or_false, false_or, List.not_mem_nil,
    Option.some.injEq] at h
  obtain ⟨rule, hrule, -, rfl⟩ := h
  exact ⟨List.mem_zipIdx_iff_getElem?.1 htable, List.mem_zipIdx_iff_getElem?.1 hchain,
    List.mem_zipIdx_iff_getElem?.1 hrule⟩

theorem newline_notMem_nftLines {tables : List NftTable} {l : NftLine} (h : l ∈ nftLines tables) :
    '\n' ∉ l.1 := by
  have hfixed : ∀ text ∈ ["table ".toList, "\tchain ".toList, "\t\t".toList, " \x7b".toList,
      "\x7d".toList, "\t\x7d".toList], '\n' ∉ text := by decide
  simp only [List.forall_mem_cons] at hfixed
  obtain ⟨table, -, h⟩ := List.mem_flatMap.1 h
  simp only [NftTable.lines, List.mem_append, List.mem_cons, List.mem_map, List.mem_flatMap,
    List.not_mem_nil, or_false] at h
  rcases h with ((rfl | ⟨l', -, rfl⟩) | ⟨chain, -, h⟩) | rfl
  · simp [hfixed, table.1.family.line, table.1.name.line, -String.reduceToList]
  · simp [l'.line]
  · simp only [NftChain.lines, List.mem_append, List.mem_cons, List.mem_map, List.not_mem_nil,
      or_false] at h
    rcases h with ((rfl | ⟨l', -, rfl⟩) | ⟨rule, -, rfl⟩) | rfl
    · simp [hfixed, chain.1.name.line, -String.reduceToList]
    · simp [hfixed, l'.line, -String.reduceToList]
    · simp [hfixed, rule.1.text.line, -String.reduceToList]
    · exact hfixed.2.2.2.2.2.1
  · exact hfixed.2.2.2.2.1

/-- What is printed for tables is neither blank nor an error. -/
theorem nftLines_cases (tables : List NftTable) : nftLines tables = [] ∨
    ∃ rest, unlines ((nftLines tables).map Prod.fst) = 't' :: rest := by
  cases tables with
  | nil => exact .inl rfl
  | cons table tables =>
    refine .inr ?_
    rw [nftLines, List.zipIdx_cons, List.flatMap_cons, NftTable.lines, List.cons_append,
      List.cons_append, List.cons_append, List.map_cons, unlines_cons]
    exact ⟨_, rfl⟩

theorem parseNftRules_nftLines (tables : List NftTable) :
    parseNftRules (unlines ((nftLines tables).map Prod.fst)) =
      (nftShown tables).zipIdx.map fun l => nftRow (l.1.1, l.2) := by
  have hlines : ∀ l ∈ (nftLines tables).map Prod.fst, '\n' ∉ l := by
    intro l hl
    obtain ⟨line, hline, rfl⟩ := List.mem_map.1 hl
    exact newline_notMem_nftLines hline
  have hfilter : (linesOf (unlines ((nftLines tables).map Prod.fst))).filter isNftRule =
      (nftShown tables).map fun l => stripCr l.1 := by
    rw [linesOf_unlines hlines, List.map_map, List.filter_map, nftShown]
    congr 1
    exact List.filter_congr fun l _ => isNftRule_stripCr l.1
  have hrows : ((linesOf (unlines ((nftLines tables).map Prod.fst))).filter isNftRule).zipIdx.map
      nftRow = (nftShown tables).zipIdx.map fun l => nftRow (l.1.1, l.2) := by
    rw [hfilter, List.zipIdx_map, List.map_map]
    refine List.map_congr_left fun l _ => ?_
    simp [nftRow, trimmed_stripCr]
  rw [parseNftRules]
  split_ifs with herror
  · rcases nftLines_cases tables with hnil | ⟨rest, hrest⟩
    · rw [nftShown, hnil]
      rfl
    · rw [hrest] at herror
      rcases herror with hblank | herror
      · have hsolid : solid ('t' :: rest) = [] := by
          rw [← solid_trimmed, hblank]
          rfl
        exact absurd (solid_eq_nil_iff.1 hsolid 't' List.mem_cons_self) (by decide)
      · have hfirst : 'e' = 't' := (List.cons_prefix_cons.1 herror).1
        exact absurd hfirst (by decide)
  · exact hrows

theorem nftChain_erase_ne_self {chain : NftChain} {r : ℕ} (hr : r < chain.rules.length) :
    chain.erase r ≠ chain := by
  intro h
  have hlength := congrArg (fun c => c.rules.length) h
  rw [NftChain.erase, List.length_eraseIdx_of_lt hr] at hlength
  omega

theorem eraseHandle_chain_iff {chain : NftChain} {rule : NftRule} {r : ℕ} {handle : UInt64}
    (hunique : (chain.rules.map NftRule.handle).Nodup) (hrule : chain.rules[r]? = some rule) :
    chain.eraseHandle (decimal handle.toNat) = chain.erase r ↔ rule.handle = handle := by
  have hparse : parseUnsigned 64 (decimal handle.toNat) = some handle.toNat :=
    parseUnsigned_decimal handle.toNat_lt
  have hfilter : chain.rules.filter (fun r => some r.handle.toNat ≠ some handle.toNat) =
      chain.rules.filter fun r => r.handle ≠ handle :=
    List.filter_congr fun r _ => by simp [UInt64.toNat_inj]
  rw [← Keyed.filter_ne_eq_eraseIdx_iff hunique hrule, NftChain.eraseHandle, hparse, hfilter,
    NftChain.erase, NftChain.mk.injEq]
  simp

theorem eraseHandle_table_iff {table : NftTable} {chain : NftChain} {c r : ℕ}
    {name handle : String} (hunique : (table.chains.map fun c => c.name.text).Nodup)
    (hchain : table.chains[c]? = some chain) (hr : r < chain.rules.length) :
    table.eraseHandle name handle = table.erase c r ↔
      chain.name.text = name.toList ∧ chain.eraseHandle handle = chain.erase r := by
  rw [← Keyed.map_ite_eq_modify_iff (f := NftChain.eraseHandle handle) hunique hchain
    (nftChain_erase_ne_self hr), NftTable.eraseHandle, NftTable.erase, NftTable.mk.injEq]
  simp

theorem nftTable_erase_ne_self {table : NftTable} {chain : NftChain} {c r : ℕ}
    (hchain : table.chains[c]? = some chain) (hr : r < chain.rules.length) :
    table.erase c r ≠ table := by
  intro h
  have hget := congrArg (fun t => t.chains[c]?) h
  simp only [NftTable.erase, List.getElem?_modify, hchain] at hget
  simp only [if_true, Option.map_eq_map, Option.map_some, Option.some.injEq] at hget
  exact nftChain_erase_ne_self hr hget

/-- The command of a row takes the rule behind it away iff that rule is in the one chain that the
command names, and has the number of the row for its handle. -/
theorem exec_nft_iff {tables : List NftTable} (hunique : (Rules.nftables tables).Unique)
    {text : List Char} {p : NftPlaced} (hmem : (text, some p) ∈ nftLines tables)
    (handle : UInt64) :
    (Rules.nftables tables).exec ["nft", "delete", "rule", "inet", "filter", "input", "handle",
        decimal handle.toNat] = (Rules.nftables tables).erase p.place ↔
      p.table.family.text = "inet".toList ∧ p.table.name.text = "filter".toList ∧
        p.chain.name.text = "input".toList ∧ p.rule.handle = handle := by
  obtain ⟨htable, hchain, hrule⟩ := mem_nftLines hmem
  obtain ⟨htables, hchains⟩ := hunique
  obtain ⟨hnames, hhandles⟩ := hchains p.table (List.mem_of_getElem? htable)
  have hlt : p.r < p.chain.rules.length := (List.getElem?_eq_some_iff.1 hrule).1
  have hexec := Keyed.map_ite_eq_modify_iff (k := ("inet".toList, "filter".toList))
    (f := NftTable.eraseHandle "input" (decimal handle.toNat)) htables htable
    (nftTable_erase_ne_self hchain hlt)
  rw [eraseHandle_table_iff hnames hchain hlt,
    eraseHandle_chain_iff (hhandles p.chain (List.mem_of_getElem? hchain)) hrule,
    Prod.mk.injEq, and_assoc] at hexec
  rw [← hexec]
  exact ⟨Rules.nftables.inj, congrArg Rules.nftables⟩

theorem removes_nft {tables : List NftTable} (hunique : (Rules.nftables tables).Unique)
    {l : NftLine × ℕ} (hl : l ∈ (nftShown tables).zipIdx) :
    Removes (.nftables tables) (l.1.2.map NftPlaced.place)
        (tagged "nftables" (nftRow (l.1.1, l.2))) ↔
      ∃ p, l.1.2 = some p ∧ p.table.family.text = "inet".toList ∧
        p.table.name.text = "filter".toList ∧ p.chain.name.text = "input".toList ∧
        p.rule.handle = UInt64.ofNat (l.2 + 1) := by
  obtain ⟨⟨text, _ | p⟩, i⟩ := l
  · refine iff_of_false ?_ ?_
    · rintro ⟨p, hp, -⟩
      cases hp
    · rintro ⟨p, hp, -⟩
      cases hp
  · have hmem : (text, some p) ∈ nftLines tables := by
      have hget := List.mem_zipIdx_iff_getElem?.1 hl
      exact List.mem_of_mem_filter (List.mem_of_getElem? hget)
    have hcmd (user password : String) :
        removeRuleFrom user password (tagged "nftables" (nftRow (text, i))) (some .nftables) =
          sudoAsUser user password ["nft", "delete", "rule", "inet", "filter", "input", "handle",
            decimal (UInt64.ofNat (i + 1)).toNat] := rfl
    have hfixed : ["nft", "delete", "rule", "inet", "filter", "input", "handle"].any hasNul =
      false := by decide
    have hremoves : Removes (.nftables tables) (some p.place)
        (tagged "nftables" (nftRow (text, i))) ↔ _ :=
      removes_iff rfl rfl hcmd (any_hasNul_concat hfixed (hasNul_decimal _))
    rw [Option.map_some, hremoves, exec_nft_iff hunique hmem]
    simp

theorem removal_nft_iff {tables : List NftTable} (hunique : (Rules.nftables tables).Unique) :
    List.Forall₂ (Removes (.nftables tables)) (Rules.nftables tables).shown
        (firewallRulesFor (.nftables tables)) ↔ Fits (.nftables tables) := by
  have hrows : firewallRulesFor (.nftables tables) =
      (nftShown tables).zipIdx.map fun l => tagged "nftables" (nftRow (l.1.1, l.2)) := by
    rw [firewallRulesFor, parseNftRules_nftLines, List.map_map]
    rfl
  have hshown : (Rules.nftables tables).shown =
      (nftShown tables).zipIdx.map fun l => l.1.2.map NftPlaced.place := by
    conv_lhs => rw [Rules.shown, ← nftShown, ← List.zipIdx_map_fst 0 (nftShown tables)]
    rw [List.map_map]
    rfl
  rw [forall₂_removes_iff hshown hrows]
  exact forall₂_congr fun l hl => removes_nft hunique hl

/-! ## firewalld -/

theorem not_removes_firewalld {rules : Rules} {place : Option Place} {zone : List Char}
    {type : String} {value : List Char} :
    ¬ Removes rules place (tagged "firewalld" (firewalldRow zone type value)) :=
  not_removes rfl rfl (fun _ _ _ => id) place

/-- Of the rules of `firewalld` not even one can be removed. -/
theorem removal_firewalld_iff (zone : Name) (running permanent : Zone) :
    List.Forall₂ (Removes (.firewalld zone running permanent))
        (Rules.firewalld zone running permanent).shown
        (firewallRulesFor (.firewalld zone running permanent)) ↔
      Fits (.firewalld zone running permanent) := by
  have hrow : ∀ row ∈ firewallRulesFor (.firewalld zone running permanent), ∀ place,
      ¬ Removes (.firewalld zone running permanent) place row := by
    intro row hrow place
    rw [firewallRulesFor] at hrow
    obtain ⟨row, hparsed, rfl⟩ := List.mem_map.1 hrow
    rcases List.mem_append.1 hparsed with hrow | hrow
    · rcases List.mem_append.1 hrow with hrow | hrow
      · obtain ⟨w, -, rfl⟩ := List.mem_map.1 hrow
        exact not_removes_firewalld
      · obtain ⟨w, -, rfl⟩ := List.mem_map.1 hrow
        exact not_removes_firewalld
    · obtain ⟨w, -, rfl⟩ := List.mem_map.1 hrow
      exact not_removes_firewalld
  constructor
  · intro h
    have hnil : (Rules.firewalld zone running permanent).shown = [] := by
      cases hrows : firewallRulesFor (.firewalld zone running permanent) with
      | nil => exact List.forall₂_nil_right_iff.1 (hrows ▸ h)
      | cons row rows =>
        rw [hrows] at h
        obtain ⟨place, -, hremoves, -, -⟩ := List.forall₂_cons_right_iff.1 h
        exact absurd hremoves (hrow row (by simp [hrows]) place)
    simpa [Rules.shown, Fits, and_assoc] using hnil
  · rintro ⟨hservices, hports, hrich⟩
    have hshown : (Rules.firewalld zone running permanent).shown = [] := by
      simp [Rules.shown, hservices, hports, hrich]
    have hrows : firewallRulesFor (.firewalld zone running permanent) = [] := by
      have hwords : Words.words isWhitespace (wordList []) = [] := by decide
      simp [firewallRulesFor, parseFirewalldRules, hservices, hports, hrich, hwords]
    rw [hshown, hrows]
    exact .nil

/-! ## The law -/

theorem forall_zipIdx_iff {α : Type} (l : List α) :
    (∀ x ∈ l.zipIdx, x.2 + 1 < 2 ^ 32) ↔ l.length < 2 ^ 32 := by
  constructor
  · intro h
    by_contra hlong
    have hlt : l.length - 1 < l.length := by omega
    have hlast := h (l[l.length - 1], l.length - 1)
      (List.mem_zipIdx_iff_getElem?.2 (List.getElem?_eq_getElem hlt))
    dsimp only at hlast
    omega
  · intro h x hx
    have hlt : x.2 < l.length := List.snd_lt_of_mem_zipIdx hx
    omega

theorem removal_iptables_iff {chains : List Chain} (hunique : (Rules.iptables chains).Unique) :
    List.Forall₂ (Removes (.iptables chains)) (Rules.iptables chains).shown
        (firewallRulesFor (.iptables chains)) ↔ Fits (.iptables chains) := by
  have hrows : firewallRulesFor (.iptables chains) = (iptablesItems chains).map
      fun x => tagged "iptables" (iptablesShown x.1.1.title x.2) := by
    rw [firewallRulesFor, parseIptablesRules_iptablesList, List.map_map]
    rfl
  have hshown : (Rules.iptables chains).shown =
      (iptablesItems chains).map fun x => some (.iptables x.1.2 x.2.2) := by
    rw [iptablesItems, List.map_flatMap]
    simp only [List.map_map]
    rfl
  have hitem (c : Chain × ℕ) (hc : c ∈ chains.zipIdx) :
      (∀ r ∈ c.1.rules.zipIdx, Removes (.iptables chains) (some (.iptables c.2 r.2))
        (tagged "iptables" (iptablesShown c.1.title r))) ↔
      (c.1.rules ≠ [] → c.1.name.text ≠ [] ∧ (∀ a ∈ c.1.name.text, isWhitespace a = false) ∧
        c.1.rules.length < 2 ^ 32) := by
    have hremoves := forall₂_congr fun r (hr : r ∈ c.1.rules.zipIdx) =>
      removes_iptables hunique hc hr
    rw [hremoves, ← and_assoc, ← forall_zipIdx_iff]
    constructor
    · intro h hne
      have hlt := List.length_pos_of_ne_nil hne
      have hfirst := h (c.1.rules[0], 0)
        (List.mem_zipIdx_iff_getElem?.2 (List.getElem?_eq_getElem hlt))
      exact ⟨hfirst.1, fun r hr => (h r hr).2⟩
    · intro h r hr
      have hne : c.1.rules ≠ [] := List.ne_nil_of_mem (List.fst_mem_of_mem_zipIdx hr)
      exact ⟨(h hne).1, (h hne).2 r hr⟩
  rw [forall₂_removes_iff hshown hrows]
  constructor
  · intro h chain hchain
    obtain ⟨j, hj⟩ := List.mem_iff_getElem?.1 hchain
    have hc : (chain, j) ∈ chains.zipIdx := List.mem_zipIdx_iff_getElem?.2 hj
    refine (hitem (chain, j) hc).1 fun r hr => h ((chain, j), r) ?_
    exact List.mem_flatMap.2 ⟨(chain, j), hc, List.mem_map_of_mem hr⟩
  · rintro h x hx
    obtain ⟨c, hc, hx⟩ := List.mem_flatMap.1 hx
    obtain ⟨r, hr, rfl⟩ := List.mem_map.1 hx
    exact (hitem c hc).2 (h c.1 (List.fst_mem_of_mem_zipIdx hc)) r hr

/-- A rule set can be taken down rule by rule, as it is listed, exactly when it fits. -/
theorem removal_law_iff (fw : Firewall) : RemovalLaw fw ↔ Fits fw.rules := by
  obtain ⟨rules, hunique⟩ := fw
  unfold RemovalLaw
  cases rules with
  | ufw rules =>
    have hrows : firewallRulesFor (.ufw rules) =
        rules.zipIdx.map fun r => tagged "ufw" (ufwShown r) := by
      rw [firewallRulesFor, parseUfwRules_ufwStatus, List.map_map]
      rfl
    rw [forall₂_removes_iff rfl hrows, Fits, ← forall_zipIdx_iff]
    exact forall₂_congr fun r hr => removes_ufw hr
  | firewalld zone running permanent => exact removal_firewalld_iff zone running permanent
  | nftables tables => exact removal_nft_iff hunique
  | iptables chains => exact removal_iptables_iff hunique

/-- Two rules of which the second one was there first. -/
def inserted : List NftTable :=
  [⟨⟨"inet".toList, by decide, by decide⟩, ⟨"filter".toList, by decide, by decide⟩, [],
    [⟨⟨"input".toList, by decide, by decide⟩,
      [⟨"type filter hook input priority filter; policy accept;".toList, by decide, by decide⟩],
      [⟨3, ⟨"ip saddr 192.0.2.1 drop".toList, by decide, by decide⟩⟩,
        ⟨2, ⟨"tcp dport 22 accept".toList, by decide, by decide⟩⟩]⟩]⟩]

theorem inserted_unique : (Rules.nftables inserted).Unique := by
  refine ⟨by decide, fun t ht => ?_⟩
  rw [List.mem_singleton.1 ht]
  refine ⟨by decide, fun c hc => ?_⟩
  rw [List.mem_singleton.1 hc]
  decide

/-- The row of the rule that drops is number two, the handle of the rule that lets `ssh` in. -/
theorem inserted_misremoved : ¬ RemovalLaw ⟨.nftables inserted, inserted_unique⟩ := by
  intro h
  have hfits := (removal_nft_iff inserted_unique).1 h
  have hsecond : ((nftShown inserted)[1]?).bind
      (fun l => l.2.map fun p => p.rule.handle) = some 3 := by decide +kernel
  obtain ⟨l, hl, hhandle⟩ := Option.bind_eq_some_iff.1 hsecond
  obtain ⟨p, hp, -, -, -, hnumber⟩ := hfits (l, 1) (List.mem_zipIdx_iff_getElem?.2 hl)
  dsimp only at hp hnumber
  rw [hp, Option.map_some, hnumber] at hhandle
  revert hhandle
  decide

example : (Rules.nftables inserted).exec
      ["nft", "delete", "rule", "inet", "filter", "input", "handle", "2"] =
    (Rules.nftables inserted).erase (.nftables 0 0 1) := rfl

end Tenodera.Agent.FirewallRules

import Mathlib.Data.List.Basic
import Mathlib.Data.List.TakeWhile

/-!
# Options on a command line

`getopt_long` takes the words of a command line apart into options, with or without an argument, and
operands.  A word is an option for what it begins with, so that a word from elsewhere is safe only
where no option is looked for: as the argument of the option in front of it, or behind `--`.
`parse_render`, `parseFirst_words` and `parseFirst_render` say that such command lines are read as
they were meant.
-/

namespace Getopt

/-- A short option or a long one. -/
inductive Flag
  | short (c : Char)
  | long (name : String)
  deriving DecidableEq

/-- Whether a program knows an option, and whether it takes an argument. -/
abbrev Spec : Type := Flag → Option Bool

structure Opt where
  flag : Flag
  value : Option String
  deriving DecidableEq

/-- What a word looks like. -/
inductive Word
  | separator
  | long (name : String) (value : Option String)
  | cluster (options : List Char)
  | operand
  deriving DecidableEq

def classify (word : String) : Word :=
  match word.toList with
  | ['-', '-'] => .separator
  | '-' :: '-' :: body =>
    .long (String.ofList (body.takeWhile (· ≠ '=')))
      (if '=' ∈ body then some (String.ofList (body.dropWhile (· ≠ '=')).tail) else none)
  | '-' :: c :: options => .cluster (c :: options)
  | _ => .operand

/-- A word of short options, and the last of them when its argument is the next word. -/
def cluster (spec : Spec) : List Char → Option (List Opt × Option Flag)
  | [] => some ([], none)
  | c :: options =>
    match spec (.short c) with
    | none => none
    | some false => (cluster spec options).map fun r => (⟨.short c, none⟩ :: r.1, r.2)
    | some true =>
      if options = [] then some ([], some (.short c))
      else some ([⟨.short c, some (String.ofList options)⟩], none)

/-- A word that is a long option, likewise. -/
def longOption (spec : Spec) (name : String) (value : Option String) :
    Option (List Opt × Option Flag) :=
  match spec (.long name), value with
  | some false, none => some ([⟨.long name, none⟩], none)
  | some true, some v => some ([⟨.long name, some v⟩], none)
  | some true, none => some ([], some (.long name))
  | _, _ => none

/-- The options and the operands, or nothing when the program refuses the command line.  `pending`
waits for its argument; with `inOrder` the first operand ends the options. -/
def parseFrom (spec : Spec) (inOrder : Bool) :
    Option Flag → List String → Option (List Opt × List String)
  | some _, [] => none
  | some flag, word :: words =>
    (parseFrom spec inOrder none words).map fun r => (⟨flag, some word⟩ :: r.1, r.2)
  | none, [] => some ([], [])
  | none, word :: words =>
    match classify word with
    | .separator => some ([], words)
    | .operand =>
      if inOrder then some ([], word :: words)
      else (parseFrom spec inOrder none words).map fun r => (r.1, word :: r.2)
    | .cluster options =>
      (cluster spec options).bind fun found =>
        (parseFrom spec inOrder found.2 words).map fun r => (found.1 ++ r.1, r.2)
    | .long name value =>
      (longOption spec name value).bind fun found =>
        (parseFrom spec inOrder found.2 words).map fun r => (found.1 ++ r.1, r.2)

/-- `getopt_long`, which looks for options among the operands too. -/
def parse (spec : Spec) (words : List String) : Option (List Opt × List String) :=
  parseFrom spec false none words

/-- `getopt_long` up to the first operand. -/
def parseFirst (spec : Spec) (words : List String) : Option (List Opt × List String) :=
  parseFrom spec true none words

/-! ## Command lines that are read as they were meant -/

/-- The word of an option. -/
def Flag.word : Flag → String
  | .short c => String.ofList ['-', c]
  | .long name => String.ofList ('-' :: '-' :: name.toList)

/-- The word of the option is read as that option. -/
def Flag.Plain : Flag → Prop
  | .short c => c ≠ '-'
  | .long name => name ≠ "" ∧ '=' ∉ name.toList

/-- The words of an option, with its argument in a word of its own. -/
def Opt.words (o : Opt) : List String := o.flag.word :: o.value.toList

/-- The program knows the option, with or without an argument as it is given. -/
def Knows (spec : Spec) (o : Opt) : Prop := o.flag.Plain ∧ spec o.flag = some o.value.isSome

/-- The words of a short option, with its argument in a word of its own. -/
def render (c : Char) (value : Option String) : List String :=
  String.ofList ['-', c] :: value.toList

/-- The program knows the short option, with or without an argument as it is given. -/
def Takes (spec : Spec) (o : Char × Option String) : Prop :=
  o.1 ≠ '-' ∧ spec (.short o.1) = some o.2.isSome

def opt (o : Char × Option String) : Opt := ⟨.short o.1, o.2⟩

variable {spec : Spec} {inOrder : Bool} {os : List Opt} {opts : List (Char × Option String)}
  {c : Char} {words operands : List String} {word name : String}

theorem classify_short (h : c ≠ '-') : classify (String.ofList ['-', c]) = .cluster [c] := by
  unfold classify
  rw [String.toList_ofList]
  split
  · rename_i heq
    cases heq
    exact absurd rfl h
  · rename_i heq
    cases heq
    exact absurd rfl h
  · rename_i heq
    cases heq
    rfl
  · rename_i hno
    exact absurd rfl (hno c [])

theorem classify_long (hne : name ≠ "") (heq : '=' ∉ name.toList) :
    classify (Flag.long name).word = .long name none := by
  have hname : name.toList.takeWhile (· ≠ '=') = name.toList :=
    List.takeWhile_eq_self_iff.2 fun c hc => decide_eq_true fun h => heq (h ▸ hc)
  have hbody : name.toList ≠ [] := fun h => hne (String.toList_inj.1 h)
  obtain ⟨c, cs, hcs⟩ := List.exists_cons_of_ne_nil hbody
  unfold classify Flag.word
  rw [String.toList_ofList, hcs]
  show Word.long _ _ = _
  rw [← hcs, hname, if_neg heq, String.ofList_toList]

/-- What the word of an option leaves: the option, or an option that waits for its argument. -/
def found (o : Opt) : List Opt × Option Flag :=
  if o.value.isSome then ([], some o.flag) else ([o], none)

theorem cluster_singleton {value : Option String} (h : spec (.short c) = some value.isSome) :
    cluster spec [c] = some (found ⟨.short c, value⟩) := by
  rw [cluster, h]
  cases value <;> rfl

theorem longOption_none {value : Option String} (h : spec (.long name) = some value.isSome) :
    longOption spec name none = some (found ⟨.long name, value⟩) := by
  unfold longOption
  rw [h]
  cases value <;> rfl

theorem parseFrom_found (o : Opt) :
    ((parseFrom spec inOrder (found o).2 (o.value.toList ++ words)).map fun r =>
      ((found o).1 ++ r.1, r.2)) =
        (parseFrom spec inOrder none words).map fun r => (o :: r.1, r.2) := by
  obtain ⟨flag, value⟩ := o
  cases value with
  | none => rfl
  | some v =>
    show ((parseFrom spec inOrder none words).map _).map _ = _
    rw [Option.map_map]
    rfl

theorem parseFrom_words (o : Opt) (h : Knows spec o) :
    parseFrom spec inOrder none (o.words ++ words) =
      (parseFrom spec inOrder none words).map fun r => (o :: r.1, r.2) := by
  rw [← parseFrom_found o]
  obtain ⟨flag, value⟩ := o
  obtain ⟨hplain, hspec⟩ := h
  rw [Opt.words, List.cons_append, parseFrom]
  cases flag with
  | short c =>
    rw [Flag.word, classify_short hplain]
    show (cluster spec [c]).bind _ = _
    rw [cluster_singleton hspec, Option.bind_some]
  | long name =>
    rw [classify_long hplain.1 hplain.2]
    show (longOption spec name none).bind _ = _
    rw [longOption_none hspec, Option.bind_some]

theorem parseFrom_flatMap_words (h : ∀ o ∈ os, Knows spec o) :
    parseFrom spec inOrder none (os.flatMap Opt.words ++ words) =
      (parseFrom spec inOrder none words).map fun r => (os ++ r.1, r.2) := by
  induction os with
  | nil =>
    rw [List.flatMap_nil, List.nil_append]
    exact Option.map_id'.symm
  | cons o os ih =>
    rw [List.forall_mem_cons] at h
    rw [List.flatMap_cons, List.append_assoc, parseFrom_words o h.1, ih h.2, Option.map_map]
    rfl

theorem parseFrom_flatMap_render (h : ∀ o ∈ opts, Takes spec o) :
    parseFrom spec inOrder none (opts.flatMap (fun o => render o.1 o.2) ++ words) =
      (parseFrom spec inOrder none words).map fun r => (opts.map opt ++ r.1, r.2) := by
  have hwords : opts.flatMap (fun o => render o.1 o.2) = (opts.map opt).flatMap Opt.words := by
    rw [List.flatMap_map]
    rfl
  rw [hwords, parseFrom_flatMap_words (List.forall_mem_map.2 h)]

/-- Options of both kinds are read as they were meant, up to `--`. -/
theorem parseFirst_words (h : ∀ o ∈ os, Knows spec o) (operands : List String) :
    parseFirst spec (os.flatMap Opt.words ++ "--" :: operands) = some (os, operands) := by
  rw [parseFirst, parseFrom_flatMap_words h]
  show some (os ++ [], operands) = _
  rw [List.append_nil]

/-- Options, their arguments and what is behind `--` are read as they were meant. -/
theorem parse_render (h : ∀ o ∈ opts, Takes spec o) (operands : List String) :
    parse spec (opts.flatMap (fun o => render o.1 o.2) ++ "--" :: operands) =
      some (opts.map opt, operands) := by
  rw [parse, parseFrom_flatMap_render h]
  show some (opts.map opt ++ [], operands) = _
  rw [List.append_nil]

theorem parseFirst_render (h : ∀ o ∈ opts, Takes spec o) (hword : classify word = .operand)
    (words : List String) :
    parseFirst spec (opts.flatMap (fun o => render o.1 o.2) ++ word :: words) =
      some (opts.map opt, word :: words) := by
  have hrest : parseFrom spec true none (word :: words) = some ([], word :: words) := by
    rw [parseFrom, hword]
    rfl
  rw [parseFirst, parseFrom_flatMap_render h, hrest, Option.map_some, List.append_nil]

end Getopt

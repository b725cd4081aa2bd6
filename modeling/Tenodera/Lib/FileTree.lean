import Mathlib.Data.List.DropRight
import Tenodera.Lib.Path

/-!
# Directory trees with symbolic links

A tree says what is at each location, which is given by the names on the way from the root.  A path
is walked name by name: `walk` follows every link, as long as the number of links that it may
follow lasts, and leaves what to do with a name that does not exist to a parameter.  From it come
`resolve` (`realpath`), `openTarget` (what `open` creates or writes), `entry` (the directory entry
that `unlink` removes) and `real` (where a path leads once its missing directories are made).
-/

namespace FileTree

/-- The names from the root to an object. -/
abbrev Location := List String

inductive Node
  | file
  | dir
  /-- A symbolic link, with the path it holds. -/
  | link (target : String)
  deriving DecidableEq, Repr

structure Tree where
  node : Location → Option Node
  node_nil : node [] = some .dir
  /-- What exists is in a directory. -/
  node_parent : ∀ loc name, (node (loc ++ [name])).isSome → node loc = some .dir

/-! ## Trees from lists -/

/-- The entries form a tree. -/
def isClosed (entries : List (Location × Node)) : Bool :=
  entries.lookup [] = some .dir &&
    entries.all fun e => e.1 = [] || entries.lookup e.1.dropLast = some .dir

/-- The tree with these entries. -/
def Tree.ofList (entries : List (Location × Node)) (h : isClosed entries) : Tree where
  node loc := entries.lookup loc
  node_nil := by
    simp only [isClosed, Bool.and_eq_true, decide_eq_true_eq] at h
    exact h.1
  node_parent loc name hsome := by
    simp only [isClosed, Bool.and_eq_true, List.all_eq_true] at h
    obtain ⟨node, hnode⟩ := Option.isSome_iff_exists.1 hsome
    obtain ⟨before, after, hentries, -⟩ := List.lookup_eq_some_iff.1 hnode
    have hentry := h.2 (loc ++ [name], node) (by simp [hentries])
    simpa using hentry

/-! ## Walking a path -/

/-- The pieces of a path between its slashes. -/
def parts (path : String) : List String := (path.toList.splitOn '/').map String.ofList

/-- Where the walk of a path begins. -/
def start (cwd : Location) (path : String) : Location :=
  if path.toList.head? = some '/' then [] else cwd

/-- The pieces that are names. -/
def isName (part : String) : Bool := part ≠ "" && part ≠ "." && part ≠ ".."

/-- A location that a path can lead to, as the working directory is. -/
structure Place where
  loc : Location
  names : ∀ name ∈ loc, isName name ∧ '/' ∉ name.toList

/-- Walk the pieces of a path: `missing` goes on where a name does not exist, `follow` walks on from
a link. -/
def walkWith (t : Tree) (missing : Location → String → List String → Option Location)
    (follow : Location → List String → Option Location) :
    Location → List String → Option Location
  | loc, [] => some loc
  | loc, part :: rest =>
    if t.node loc ≠ some .dir then none
    else if part = "" ∨ part = "." then walkWith t missing follow loc rest
    else if part = ".." then walkWith t missing follow loc.dropLast rest
    else
      match t.node (loc ++ [part]) with
      | none => missing loc part rest
      | some (.link target) => follow (start loc target) (parts target ++ rest)
      | some _ => walkWith t missing follow (loc ++ [part]) rest

/-- Walk the pieces of a path over at most `n` links. -/
def walk (t : Tree) (missing : Location → String → List String → Option Location) :
    ℕ → Location → List String → Option Location
  | 0 => walkWith t missing fun _ _ => none
  | n + 1 => walkWith t missing (walk t missing n)

/-- A name that does not exist is an error. -/
def refuse (_ : Location) (_ : String) (_ : List String) : Option Location := none

/-- The last name may not exist yet. -/
def createLast (loc : Location) (name : String) : List String → Option Location
  | [] => some (loc ++ [name])
  | _ :: _ => none

/-- Everything from the first missing name on is made. -/
def makeAll (loc : Location) (name : String) (rest : List String) : Option Location :=
  some (rest.foldl
    (fun loc part =>
      if part = "" ∨ part = "." then loc
      else if part = ".." then loc.dropLast
      else loc ++ [part]) (loc ++ [name]))

/-- What a path means, from a working directory and over at most `n` links. -/
def follow (t : Tree) (missing : Location → String → List String → Option Location) (n : ℕ)
    (cwd : Location) (path : String) : Option Location :=
  if path = "" then none else walk t missing n (start cwd path) (parts path)

/-- `realpath`. -/
def Tree.resolve (t : Tree) (n : ℕ) (cwd : Location) (path : String) : Option Location :=
  follow t refuse n cwd path

/-- The object that `open` writes to, and creates when it does not exist. -/
def Tree.openTarget (t : Tree) (n : ℕ) (cwd : Location) (path : String) : Option Location :=
  follow t createLast n cwd path

/-- Where a path leads when its missing directories are made. -/
def Tree.real (t : Tree) (n : ℕ) (cwd : Location) (path : String) : Option Location :=
  follow t makeAll n cwd path

/-- The directory entry that the pieces of a path name: a link in the last place is not followed. -/
def Tree.entryOf (t : Tree) (n : ℕ) (base : Location) (pieces : List String) : Option Location :=
  match pieces.getLast? with
  | none => none
  | some name =>
    if isName name then
      (walk t refuse n base pieces.dropLast).bind fun dir =>
        if t.node dir = some .dir then some (dir ++ [name]) else none
    else none

def Tree.entry (t : Tree) (n : ℕ) (cwd : Location) (path : String) : Option Location :=
  t.entryOf n (start cwd path) (parts path)

/-- The entry that `mkdir` makes: slashes at the end are ignored. -/
def Tree.dirEntry (t : Tree) (n : ℕ) (cwd : Location) (path : String) : Option Location :=
  t.entryOf n (start cwd path) ((parts path).rdropWhile (· = ""))

section

variable {t : Tree} {missing : Location → String → List String → Option Location} {n : ℕ}
  {loc l : Location} {name : String} {ps qs : List String}

/-! ## One piece at a time -/

/-- What follows a link when `n` more may be followed. -/
def after (t : Tree) (missing : Location → String → List String → Option Location) :
    ℕ → Location → List String → Option Location
  | 0 => fun _ _ => none
  | n + 1 => walk t missing n

theorem walk_eq (n : ℕ) : walk t missing n = walkWith t missing (after t missing n) := by
  cases n <;> rfl

@[simp]
theorem walk_nil : walk t missing n loc [] = some loc := by
  rw [walk_eq]
  rfl

theorem walk_cons (part : String) : walk t missing n loc (part :: ps) =
    if t.node loc ≠ some .dir then none
    else if part = "" ∨ part = "." then walk t missing n loc ps
    else if part = ".." then walk t missing n loc.dropLast ps
    else
      match t.node (loc ++ [part]) with
      | none => missing loc part ps
      | some (.link target) => after t missing n (start loc target) (parts target ++ ps)
      | some _ => walk t missing n (loc ++ [part]) ps := by
  rw [walk_eq]
  rfl

theorem dir_of_walk_cons {part : String} (h : walk t missing n loc (part :: ps) = some l) :
    t.node loc = some .dir := by
  rw [walk_cons] at h
  by_contra hdir
  rw [if_pos hdir] at h
  cases h

/-- A name in a directory. -/
theorem walk_name (hdir : t.node loc = some .dir) (hname : isName name) :
    walk t missing n loc (name :: ps) =
      match t.node (loc ++ [name]) with
      | none => missing loc name ps
      | some (.link target) => after t missing n (start loc target) (parts target ++ ps)
      | some _ => walk t missing n (loc ++ [name]) ps := by
  simp only [isName, Bool.and_eq_true, decide_eq_true_eq] at hname
  rw [walk_cons, if_neg (not_not.2 hdir), if_neg (not_or.2 hname.1), if_neg hname.2]

/-- The induction over a walk that succeeds. -/
theorem walk_induction {motive : ℕ → Location → List String → Prop}
    (nil : ∀ n, motive n l [])
    (skip : ∀ n loc part ps, t.node loc = some .dir → part = "" ∨ part = "." →
      motive n loc ps → motive n loc (part :: ps))
    (up : ∀ n loc ps, t.node loc = some .dir → motive n loc.dropLast ps →
      motive n loc (".." :: ps))
    (miss : ∀ n loc name ps, t.node loc = some .dir → isName name → t.node (loc ++ [name]) = none →
      missing loc name ps = some l → motive n loc (name :: ps))
    (down : ∀ n loc name ps node, t.node loc = some .dir → isName name →
      t.node (loc ++ [name]) = some node → (∀ target, node ≠ .link target) →
      motive n (loc ++ [name]) ps → motive n loc (name :: ps))
    (link : ∀ n loc name ps target, t.node loc = some .dir → isName name →
      t.node (loc ++ [name]) = some (.link target) →
      motive n (start loc target) (parts target ++ ps) → motive (n + 1) loc (name :: ps))
    (h : walk t missing n loc ps = some l) : motive n loc ps := by
  induction n using Nat.strong_induction_on generalizing loc ps with
  | _ n ih =>
    induction ps generalizing loc with
    | nil =>
      rw [walk_nil] at h
      cases h
      exact nil n
    | cons part ps ih' =>
      have hdir := dir_of_walk_cons h
      rw [walk_cons, if_neg (not_not.2 hdir)] at h
      split_ifs at h with hskip hup
      · exact skip n loc part ps hdir hskip (ih' h)
      · subst hup
        exact up n loc ps hdir (ih' h)
      · have hname : isName part := by
          simp only [isName, Bool.and_eq_true, decide_eq_true_eq]
          exact ⟨not_or.1 hskip, hup⟩
        cases hnode : t.node (loc ++ [part]) with
        | none =>
          rw [hnode] at h
          exact miss n loc part ps hdir hname hnode h
        | some node =>
          rw [hnode] at h
          cases node with
          | file => exact down n loc part ps _ hdir hname hnode (by simp) (ih' h)
          | dir => exact down n loc part ps _ hdir hname hnode (by simp) (ih' h)
          | link target =>
            cases n with
            | zero => cases h
            | succ n => exact link n loc part ps target hdir hname hnode (ih n n.lt_succ_self h)

/-! ## Pieces that do not matter -/

/-- The second list has the same names, and no others. -/
inductive Thins : List String → List String → Prop
  | nil : Thins [] []
  | keep (part : String) {ps qs : List String} : Thins ps qs → Thins (part :: ps) (part :: qs)
  | drop {part : String} {ps qs : List String} :
    part = "" ∨ part = "." → Thins ps qs → Thins (part :: ps) qs

theorem Thins.refl (ps : List String) : Thins ps ps := by
  induction ps with
  | nil => exact .nil
  | cons part ps ih => exact ih.keep part

theorem Thins.prepend (h : Thins ps qs) (xs : List String) : Thins (xs ++ ps) (xs ++ qs) := by
  induction xs with
  | nil => exact h
  | cons x xs ih => exact ih.keep x

/-- A name stays. -/
theorem Thins.of_isName (h : Thins (name :: ps) qs) (hname : isName name) :
    ∃ qs', qs = name :: qs' ∧ Thins ps qs' := by
  simp only [isName, Bool.and_eq_true, decide_eq_true_eq] at hname
  cases h with
  | keep _ h => exact ⟨_, rfl, h⟩
  | drop hpart _ => exact absurd hpart (not_or.2 hname.1)

/-- A walk that succeeds does so without the pieces that are no names. -/
theorem walk_thins (h : Thins ps qs) (hwalk : walk t missing n loc ps = some l)
    (hmissing : ∀ loc name rest, missing loc name rest = none) :
    walk t missing n loc qs = some l := by
  suffices hthin : ∀ qs, Thins ps qs → walk t missing n loc qs = some l from hthin qs h
  refine walk_induction
    (motive := fun n loc ps => ∀ qs, Thins ps qs → walk t missing n loc qs = some l)
    ?_ ?_ ?_ ?_ ?_ ?_ hwalk
  · intro n qs h
    cases h
    exact walk_nil
  · intro n loc part ps hdir hpart ih qs h
    cases h with
    | keep _ h =>
      rw [walk_cons, if_neg (not_not.2 hdir), if_pos hpart]
      exact ih _ h
    | drop _ h => exact ih _ h
  · intro n loc ps hdir ih qs h
    cases h with
    | keep _ h =>
      rw [walk_cons, if_neg (not_not.2 hdir), if_neg (by decide), if_pos rfl]
      exact ih _ h
    | drop hpart _ =>
      have hne : ¬ (".." = "" ∨ ".." = ".") := by decide
      exact absurd hpart hne
  · intro n loc name ps hdir hname hnode hmiss
    rw [hmissing] at hmiss
    cases hmiss
  · intro n loc name ps node hdir hname hnode hlink ih qs h
    obtain ⟨qs, rfl, hrest⟩ := h.of_isName hname
    rw [walk_name hdir hname, hnode]
    cases node with
    | link target => exact absurd rfl (hlink target)
    | _ => exact ih _ hrest
  · intro n loc name ps target hdir hname hnode ih qs h
    obtain ⟨qs, rfl, hrest⟩ := h.of_isName hname
    rw [walk_name hdir hname, hnode]
    exact ih _ (hrest.prepend _)

/-! ## One walk after another -/

/-- A walk of two lists of pieces, the second one not empty, is a walk of the first one and one of
the second. -/
theorem exists_of_walk_append (hmissing : ∀ loc name rest, rest ≠ [] → missing loc name rest = none)
    (hqs : qs ≠ []) (hwalk : walk t missing n loc (ps ++ qs) = some l) :
    ∃ dir, walk t refuse n loc ps = some dir ∧ ∃ m, walk t missing m dir qs = some l := by
  induction n using Nat.strong_induction_on generalizing loc ps with
  | _ n ih =>
    induction ps generalizing loc with
    | nil => exact ⟨loc, walk_nil, n, hwalk⟩
    | cons part ps ih' =>
      rw [List.cons_append, walk_cons] at hwalk
      rw [walk_cons]
      split_ifs at hwalk ⊢ with hdir hskip hup
      · exact ih' hwalk
      · exact ih' hwalk
      · cases hnode : t.node (loc ++ [part]) with
        | none => rw [hnode, hmissing _ _ _ (by simp [hqs])] at hwalk; cases hwalk
        | some node =>
          rw [hnode] at hwalk
          cases node with
          | file => exact ih' hwalk
          | dir => exact ih' hwalk
          | link target =>
            cases n with
            | zero => cases hwalk
            | succ n =>
              have hlink : walk t missing n (start loc target) ((parts target ++ ps) ++ qs) =
                  some l := by rwa [List.append_assoc]
              exact ih n n.lt_succ_self hlink

/-- Where every name exists, nothing is made. -/
theorem walk_of_refuse (hwalk : walk t refuse n loc ps = some l) :
    walk t missing n loc ps = some l := by
  refine walk_induction (motive := fun n loc ps => walk t missing n loc ps = some l)
    (fun n => walk_nil) ?_ ?_ ?_ ?_ ?_ hwalk
  · intro n loc part ps hdir hpart ih
    rw [walk_cons, if_neg (not_not.2 hdir), if_pos hpart]
    exact ih
  · intro n loc ps hdir ih
    rw [walk_cons, if_neg (not_not.2 hdir), if_neg (by decide), if_pos rfl]
    exact ih
  · intro n loc name ps hdir hname hnode hmissing
    cases hmissing
  · intro n loc name ps node hdir hname hnode hlink ih
    rw [walk_name hdir hname, hnode]
    cases node with
    | link target => exact absurd rfl (hlink target)
    | _ => exact ih
  · intro n loc name ps target hdir hname hnode ih
    rw [walk_name hdir hname, hnode]
    exact ih

theorem real_of_resolve {cwd : Location} {path : String} (h : t.resolve n cwd path = some l) :
    t.real n cwd path = some l := by
  unfold Tree.resolve Tree.real follow at *
  split_ifs at h ⊢
  exact walk_of_refuse h

/-! ## Where a path leads -/

theorem slash_notMem_of_mem_parts {path part : String} (h : part ∈ parts path) :
    '/' ∉ part.toList := by
  obtain ⟨piece, hpiece, rfl⟩ := List.mem_map.1 h
  rw [String.toList_ofList]
  exact Path.notMem_of_mem_splitOn hpiece

theorem names_of_start {target : String} (hloc : ∀ name ∈ loc, isName name ∧ '/' ∉ name.toList) :
    ∀ name ∈ start loc target, isName name ∧ '/' ∉ name.toList := by
  unfold start
  split_ifs
  · exact fun name hname => absurd hname List.not_mem_nil
  · exact hloc

theorem names_of_walk (hwalk : walk t refuse n loc ps = some l)
    (hloc : ∀ name ∈ loc, isName name ∧ '/' ∉ name.toList) (hps : ∀ part ∈ ps, '/' ∉ part.toList) :
    ∀ name ∈ l, isName name ∧ '/' ∉ name.toList := by
  revert hloc hps
  refine walk_induction
    (motive := fun n loc ps => (∀ name ∈ loc, isName name ∧ '/' ∉ name.toList) →
      (∀ part ∈ ps, '/' ∉ part.toList) → ∀ name ∈ l, isName name ∧ '/' ∉ name.toList)
    (fun n hloc _ => hloc) ?_ ?_ ?_ ?_ ?_ hwalk
  · intro n loc part ps hdir hpart ih hloc hps
    exact ih hloc (List.forall_mem_cons.1 hps).2
  · intro n loc ps hdir ih hloc hps
    exact ih (fun name hname => hloc name (List.dropLast_subset _ hname))
      (List.forall_mem_cons.1 hps).2
  · intro n loc name ps hdir hname hnode hmissing
    cases hmissing
  · intro n loc name ps node hdir hname hnode hlink ih hloc hps
    refine ih (fun x hx => ?_) (List.forall_mem_cons.1 hps).2
    rcases List.mem_append.1 hx with hx | hx
    · exact hloc x hx
    · rw [List.mem_singleton.1 hx]
      exact ⟨hname, (List.forall_mem_cons.1 hps).1⟩
  · intro n loc name ps target hdir hname hnode ih hloc hps
    refine ih (names_of_start hloc) fun x hx => ?_
    rcases List.mem_append.1 hx with hx | hx
    · exact slash_notMem_of_mem_parts hx
    · exact (List.forall_mem_cons.1 hps).2 x hx

theorem names_of_resolve {cwd : Place} {path : String} (h : t.resolve n cwd.loc path = some l) :
    ∀ name ∈ l, isName name ∧ '/' ∉ name.toList := by
  unfold Tree.resolve follow at h
  split_ifs at h
  exact names_of_walk h (names_of_start cwd.names) fun part hpart => slash_notMem_of_mem_parts hpart

/-! ## The last name of a path -/

/-- What ends a path can be one name. -/
theorem eq_concat_of_entryOf {base : Location} {pieces : List String}
    (h : t.entryOf n base pieces = some l) : ∃ init name dir, pieces = init ++ [name] ∧
      isName name ∧ walk t refuse n base init = some dir ∧ t.node dir = some .dir ∧
      l = dir ++ [name] := by
  unfold Tree.entryOf at h
  split at h
  · cases h
  · rename_i name hlast
    split_ifs at h with hname
    obtain ⟨dir, hwalk, h⟩ := Option.bind_eq_some_iff.1 h
    split_ifs at h with hdir
    refine ⟨pieces.dropLast, name, dir, ?_, hname, hwalk, hdir, (Option.some.inj h).symm⟩
    exact (List.dropLast_append_getLast? name hlast).symm

theorem entryOf_concat {base dir : Location} {init : List String} (hname : isName name)
    (hwalk : walk t refuse n base init = some dir) (hdir : t.node dir = some .dir) :
    t.entryOf n base (init ++ [name]) = some (dir ++ [name]) := by
  rw [Tree.entryOf, List.getLast?_concat, List.dropLast_concat]
  simp only [hname, if_true, hwalk, Option.bind_some, hdir]

/-! ## Paths by their components -/

section

open Path

variable {cwd : Location} {path : String} {cs : PathBuf}

/-- The pieces that the components stand for. -/
def texts (cs : PathBuf) : List String := cs.map fun c => String.ofList c.text

theorem thins_texts (ps : List (List Char)) :
    Thins (ps.map String.ofList) (texts (ps.filterMap component)) := by
  induction ps with
  | nil => exact .nil
  | cons part ps ih =>
    rw [List.map_cons]
    cases hpart : component part with
    | none =>
      rw [List.filterMap_cons_none hpart]
      refine ih.drop ?_
      unfold component at hpart
      split at hpart <;> cases hpart
      · exact .inl rfl
      · exact .inr rfl
    | some c =>
      rw [List.filterMap_cons_some hpart, texts, List.map_cons, text_of_component hpart]
      exact ih.keep _

theorem slash_notMem_text {part : List Char} {c : Component}
    (hpart : part ∈ path.toList.splitOn '/') (hc : component part = some c) : '/' ∉ c.text := by
  rw [text_of_component hc]
  exact notMem_of_mem_splitOn hpart

theorem text_ne_nil {part : List Char} {c : Component} (hc : component part = some c) :
    c.text ≠ [] := by
  rw [text_of_component hc]
  rintro rfl
  cases hc

theorem parts_render_rootDir (h : ∀ c ∈ cs, '/' ∉ c.text) :
    parts (render (.rootDir :: cs)) = "" :: if cs = [] then [""] else texts cs := by
  by_cases hcs : cs = []
  · subst hcs
    decide
  · have hne : .rootDir :: cs ≠ [.rootDir] := fun heq => hcs (List.cons.inj heq).2
    have hroot : ∀ c ∈ Component.rootDir :: cs, '/' ∉ c.text := by
      intro c hc
      rcases List.mem_cons.1 hc with rfl | hc
      · exact List.not_mem_nil
      · exact h c hc
    rw [parts, render, if_neg hne, String.toList_ofList,
      splitOn_joined (List.cons_ne_nil _ _) hroot, if_neg hcs, List.map_map]
    rfl

theorem parts_render_relative (hne : cs ≠ []) (hroot : .rootDir ∉ cs)
    (h : ∀ c ∈ cs, '/' ∉ c.text) : parts (render cs) = texts cs := by
  have hne' : cs ≠ [.rootDir] := fun heq => hroot (heq ▸ List.mem_cons_self)
  rw [parts, render, if_neg hne', String.toList_ofList, splitOn_joined hne h, List.map_map]
  rfl

theorem head?_render_rootDir (cs : PathBuf) :
    (render (.rootDir :: cs)).toList.head? = some '/' := by
  rw [render, String.toList_ofList]
  split_ifs with h
  · rfl
  · cases cs with
    | nil => exact absurd rfl h
    | cons c cs => rfl

theorem splitOn_slash (rest : List Char) :
    ('/' :: rest).splitOn '/' = [] :: rest.splitOn '/' :=
  List.splitOn_append_cons_self_of_not_mem List.not_mem_nil rest

theorem start_render_relative (hne : cs ≠ []) (hroot : .rootDir ∉ cs)
    (h : ∀ c ∈ cs, '/' ∉ c.text ∧ c.text ≠ []) : start cwd (render cs) = cwd := by
  refine if_neg fun hhead => ?_
  have hparts := parts_render_relative hne hroot fun c hc => (h c hc).1
  obtain ⟨rest, hrest⟩ := List.head?_eq_some_iff.1 hhead
  obtain ⟨c, cs, rfl⟩ := List.exists_cons_of_ne_nil hne
  rw [parts, hrest, splitOn_slash, texts, List.map_cons, List.map_cons] at hparts
  have htext := congrArg String.toList (List.cons.inj hparts).1
  rw [String.toList_ofList, String.toList_ofList] at htext
  exact (h c List.mem_cons_self).2 htext.symm

theorem resolve_render_rootDir (hcs : ∀ c ∈ cs, '/' ∉ c.text)
    (h : walk t refuse n [] (texts cs) = some l) :
    t.resolve n cwd (render (.rootDir :: cs)) = some l := by
  have hskip (ps : List String) : walk t refuse n [] ("" :: ps) = walk t refuse n [] ps := by
    rw [walk_cons, if_neg (not_not.2 t.node_nil), if_pos (.inl rfl)]
  have hstart : start cwd (render (.rootDir :: cs)) = [] := if_pos (head?_render_rootDir cs)
  rw [Tree.resolve, follow, if_neg (render_absolute_ne_empty cs), hstart, parts_render_rootDir hcs,
    hskip]
  split_ifs with hnil
  · subst hnil
    rw [hskip]
    exact h
  · exact h

theorem resolve_render_relative (hne : cs ≠ []) (hroot : .rootDir ∉ cs)
    (hcs : ∀ c ∈ cs, '/' ∉ c.text ∧ c.text ≠ []) (h : walk t refuse n cwd (texts cs) = some l)
    (hrender : render cs ≠ "") : t.resolve n cwd (render cs) = some l := by
  rw [Tree.resolve, follow, if_neg hrender, start_render_relative hne hroot hcs,
    parts_render_relative hne hroot fun c hc => (hcs c hc).1]
  exact h

theorem component_of_isName {part : List Char} (h : isName (String.ofList part)) :
    component part = some (.normal (String.ofList part)) := by
  unfold component
  split
  · cases h
  · cases h
  · cases h
  · rfl

/-- The components of a path that ends in a name, and the path without it: walking its pieces finds
what its directory resolves to. -/
theorem resolve_render_dropLast {init blanks : List String}
    (hparts : parts path = init ++ name :: blanks) (hblanks : ∀ b ∈ blanks, b = "")
    (hname : isName name) (hwalk : walk t refuse n (start cwd path) init = some l) :
    ∃ dir, components path = dir ++ [.normal name] ∧
      (render dir ≠ "" → t.resolve n cwd (render dir) = some l) := by
  obtain ⟨initC, restC, hsplit, hinit, hrest⟩ := List.map_eq_append_iff.1 hparts
  obtain ⟨nameC, blanksC, rfl, hnameC, hblanksC⟩ := List.map_eq_cons_iff.1 hrest
  rw [← hnameC] at hname
  have hblanks : blanksC.filterMap component = [] := by
    refine List.filterMap_eq_nil_iff.2 fun b hb => ?_
    have hempty : String.ofList b = "" := hblanks _ (hblanksC ▸ List.mem_map_of_mem hb)
    have hnil : b = [] := by simpa using congrArg String.toList hempty
    rw [hnil]
    rfl
  set cs := initC.filterMap component with hcs
  have hcomponents : components path =
      firstComponents path.toList ++ cs ++ [.normal name] := by
    rw [components, hsplit, List.filterMap_append,
      List.filterMap_cons_some (component_of_isName hname), hblanks, hnameC, List.append_assoc]
  have hcs_mem {c : Component} (hc : c ∈ cs) : '/' ∉ c.text ∧ c.text ≠ [] := by
    obtain ⟨part, hpart, hc⟩ := List.mem_filterMap.1 hc
    have hmem : part ∈ path.toList.splitOn '/' := hsplit ▸ List.mem_append_left _ hpart
    exact ⟨slash_notMem_text hmem hc, text_ne_nil hc⟩
  have hcs_root : .rootDir ∉ cs := rootDir_notMem_filterMap initC
  have hthin : Thins init (texts cs) := hinit ▸ thins_texts initC
  have hrefuse : ∀ loc name rest, refuse loc name rest = none := fun _ _ _ => rfl
  refine ⟨_, hcomponents, fun hne => ?_⟩
  unfold firstComponents at hne ⊢
  split_ifs at hne ⊢ with habs hdot
  -- the path begins at the root
  · rw [start, if_pos habs] at hwalk
    exact resolve_render_rootDir (fun c hc => (hcs_mem hc).1) (walk_thins hthin hwalk hrefuse)
  -- it begins with a dot
  · have hstart : start cwd path = cwd := if_neg habs
    rw [hstart] at hwalk
    have hdotmem : ∀ c ∈ Component.curDir :: cs, '/' ∉ c.text ∧ c.text ≠ [] := by
      intro c hc
      rcases List.mem_cons.1 hc with rfl | hc
      · decide
      · exact hcs_mem hc
    refine resolve_render_relative (List.cons_ne_nil _ _) ?_ hdotmem ?_ hne
    · simpa using hcs_root
    · cases initC with
      | nil =>
        rw [hsplit] at hdot
        cases Option.some.inj hdot
        cases hname
      | cons part initC =>
        rw [hsplit] at hdot
        cases Option.some.inj hdot
        have hthin' : Thins init (texts (.curDir :: cs)) := by
          rw [← hinit, hcs]
          exact (thins_texts initC).keep "."
        exact walk_thins hthin' hwalk hrefuse
  -- it begins with a name, or with two dots
  · have hstart : start cwd path = cwd := if_neg habs
    rw [hstart] at hwalk
    have hnil : cs ≠ [] := by
      intro hnil
      rw [hnil] at hne
      exact hne (by decide)
    exact resolve_render_relative hnil hcs_root (fun c hc => hcs_mem hc)
      (walk_thins hthin hwalk hrefuse) hne

end

end

end FileTree

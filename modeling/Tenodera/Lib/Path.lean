import Mathlib.Data.List.Basic

/-!
# Unix paths

`std::path::Path` as far as its operations see it: the list of components, in which repeated
separators and a `.` that does not come first have no place.
-/

namespace Path

inductive Component
  | rootDir
  | curDir
  | parentDir
  | normal (name : String)
  deriving DecidableEq, Repr

/-- A `PathBuf`, by its components. -/
abbrev PathBuf : Type := List Component

def component : List Char → Option Component
  | [] | ['.'] => none
  | ['.', '.'] => some .parentDir
  | name => some (.normal (String.ofList name))

/-- What stands before the names: the root, or a `.` that comes first. -/
def firstComponents (path : List Char) : PathBuf :=
  if path.head? = some '/' then [.rootDir]
  else if (path.splitOn '/').head? = some ['.'] then [.curDir]
  else []

/-- `Path::components`. -/
def components (path : String) : PathBuf :=
  firstComponents path.toList ++ (path.toList.splitOn '/').filterMap component

def Component.text : Component → List Char
  | rootDir => []
  | curDir => ['.']
  | parentDir => ['.', '.']
  | normal name => name.toList

def joined : PathBuf → List Char
  | [] => []
  | [c] => c.text
  | c :: rest => c.text ++ '/' :: joined rest

/-- The text of a path. -/
def render (path : PathBuf) : String :=
  String.ofList (if path = [.rootDir] then ['/'] else joined path)

/-- `Path::parent`. -/
def parent (path : PathBuf) : Option PathBuf :=
  match path.getLast? with
  | none | some .rootDir => none
  | some _ => some path.dropLast

/-- `Path::file_name`. -/
def fileName (path : PathBuf) : Option String :=
  match path.getLast? with
  | some (.normal name) => some name
  | _ => none

/-- `Path::join` with a file name, or with nothing. -/
def joinName (path : PathBuf) (name : Option String) : PathBuf :=
  path ++ (name.map Component.normal).toList

/-- `Path::join`: an absolute path replaces the base. -/
def join (base : PathBuf) (rel : String) : PathBuf :=
  match components rel with
  | .rootDir :: rest => .rootDir :: rest
  | .curDir :: rest => base ++ rest
  | rest => base ++ rest

/-- `Path::starts_with`. -/
def startsWith (path base : PathBuf) : Bool := base.isPrefixOf path

example : components "/home/bob/./notes//a.txt" =
    [.rootDir, .normal "home", .normal "bob", .normal "notes", .normal "a.txt"] := by decide

example : (parent (components "/home/bob/x")).map render = some "/home/bob" := by decide

example : join (components "/home") "bob" = components "/home/bob" := by decide

theorem startsWith_joinName (path : PathBuf) (name : Option String) :
    startsWith (joinName path name) path := by
  simp [startsWith, joinName]

theorem component_ne_rootDir {part : List Char} : component part ≠ some .rootDir := by
  unfold component
  split <;> simp

theorem rootDir_notMem_filterMap (parts : List (List Char)) :
    .rootDir ∉ parts.filterMap component := by
  intro h
  obtain ⟨part, -, hpart⟩ := List.mem_filterMap.1 h
  exact component_ne_rootDir hpart

/-- The root comes first or not at all. -/
theorem rootDir_notMem_tail (path : String) : .rootDir ∉ (components path).tail := by
  intro h
  refine rootDir_notMem_filterMap (path.toList.splitOn '/') ?_
  unfold components firstComponents at h
  split_ifs at h
  · exact h
  · exact h
  · exact List.mem_of_mem_tail h

/-- A relative path is joined to its base. -/
theorem prefix_join (base : PathBuf) {rel : String} (h : rel.toList.head? ≠ some '/') :
    base <+: join base rel := by
  unfold join
  split
  · rename_i rest hrel
    have hroot : .rootDir ∈ components rel := by
      rw [hrel]
      exact List.mem_cons_self
    rw [components, firstComponents, if_neg h] at hroot
    rcases List.mem_append.1 hroot with hroot | hroot
    · split_ifs at hroot <;> simp at hroot
    · exact absurd hroot (rootDir_notMem_filterMap _)
  · exact List.prefix_append _ _
  · exact List.prefix_append _ _

theorem parent_of_absolute {path : String} {name : Component} {rest : PathBuf}
    (h : components path = .rootDir :: name :: rest) :
    ∃ dir, parent (components path) = some (.rootDir :: dir) := by
  obtain ⟨last, hlast⟩ := Option.isSome_iff_exists.1 (List.getLast?_isSome (l := name :: rest)|>.2
    (List.cons_ne_nil _ _))
  have hne : last ≠ .rootDir := by
    rintro rfl
    have := rootDir_notMem_tail path
    rw [h] at this
    exact this (List.mem_of_getLast? hlast)
  refine ⟨(name :: rest).dropLast, ?_⟩
  rw [parent, h, List.getLast?_cons_cons, hlast]
  cases last with
  | rootDir => exact absurd rfl hne
  | _ => rfl

theorem render_absolute_ne_empty (path : PathBuf) : render (.rootDir :: path) ≠ "" := by
  intro h
  have h := congrArg String.toList h
  cases path with
  | nil => simp [render] at h
  | cons c rest => simp [render, joined] at h

/-- The characters of a part are characters of the text. -/
theorem subset_of_mem_splitOn {a : Char} {l part : List Char} (h : part ∈ l.splitOn a) :
    part ⊆ l := by
  induction l generalizing part with
  | nil => simp_all
  | cons c l ih =>
    rw [List.splitOn, List.splitOnP_cons_eq_if_modifyHead] at h
    split_ifs at h with hc
    · rcases List.mem_cons.1 h with rfl | h
      · simp
      · exact List.Subset.trans (ih h) (List.subset_cons_self _ _)
    · obtain ⟨x, xs, hx⟩ := List.exists_cons_of_ne_nil (List.splitOnP_ne_nil (· == a) l)
      rw [hx, List.modifyHead_cons] at h
      rcases List.mem_cons.1 h with rfl | h
      · exact List.cons_subset_cons _ (ih (by rw [List.splitOn, hx]; exact List.mem_cons_self))
      · have hpart : part ⊆ l := ih (by rw [List.splitOn, hx]; exact List.mem_cons_of_mem _ h)
        exact List.Subset.trans hpart (List.subset_cons_self _ _)

/-- The parts of a text have no separator. -/
theorem notMem_of_mem_splitOn {a : Char} {l part : List Char} (h : part ∈ l.splitOn a) :
    a ∉ part := by
  induction l generalizing part with
  | nil => simp_all
  | cons c l ih =>
    rw [List.splitOn, List.splitOnP_cons_eq_if_modifyHead] at h
    split_ifs at h with hc
    · rcases List.mem_cons.1 h with rfl | h
      · exact List.not_mem_nil
      · exact ih h
    · obtain ⟨x, xs, hx⟩ := List.exists_cons_of_ne_nil (List.splitOnP_ne_nil (· == a) l)
      rw [hx, List.modifyHead_cons] at h
      rcases List.mem_cons.1 h with rfl | h
      · have hx' : a ∉ x := ih (by rw [List.splitOn, hx]; exact List.mem_cons_self)
        have hne : a ≠ c := fun hac => hc (by simp [hac])
        simp [hne, hx']
      · exact ih (by rw [List.splitOn, hx]; exact List.mem_cons_of_mem _ h)

/-- A part is a stretch of the text. -/
theorem infix_of_mem_splitOn {a : Char} {l part : List Char} (h : part ∈ l.splitOn a) :
    part <:+: l := by
  have hmem (parts : List (List Char)) (h : part ∈ parts) : part <:+: [a].intercalate parts := by
    induction parts with
    | nil => cases h
    | cons x xs ih =>
      by_cases hnil : xs = []
      · subst hnil
        cases List.mem_singleton.1 h
        exact ⟨[], [], by simp⟩
      · rw [List.intercalate_cons_of_ne_nil hnil]
        rcases List.mem_cons.1 h with rfl | h
        · exact ⟨[], [a] ++ [a].intercalate xs, by simp⟩
        · exact (ih h).trans (List.suffix_append _ _).isInfix
  have hinfix := hmem _ h
  rwa [List.intercalate_splitOn] at hinfix

/-- The text of a path is split into the texts of its components. -/
theorem splitOn_joined {path : PathBuf} (hne : path ≠ []) (h : ∀ c ∈ path, '/' ∉ c.text) :
    (joined path).splitOn '/' = path.map Component.text := by
  fun_induction joined path with
  | case1 => exact absurd rfl hne
  | case2 c => exact List.splitOn_eq_singleton (h c List.mem_cons_self)
  | case3 c rest hrest ih =>
    have hc : '/' ∉ c.text := h c List.mem_cons_self
    rw [List.splitOn_append_cons_self_of_not_mem hc, List.map_cons,
      ih hrest fun c' hc' => h c' (List.mem_cons_of_mem _ hc')]

/-- The text of what a part names is the part. -/
theorem text_of_component {part : List Char} {c : Component} (h : component part = some c) :
    c.text = part := by
  unfold component at h
  split at h <;> cases h
  · rfl
  · exact String.toList_ofList

theorem subset_of_mem_components {path name : String} (h : .normal name ∈ components path) :
    name.toList ⊆ path.toList := by
  rcases List.mem_append.1 h with h | h
  · unfold firstComponents at h
    split_ifs at h <;> simp at h
  · obtain ⟨part, hpart, hname⟩ := List.mem_filterMap.1 h
    have hsub := subset_of_mem_splitOn hpart
    unfold component at hname
    split at hname <;> cases hname
    simpa using hsub

theorem Component.mem_text {x : Component} {c : Char} (h : c ∈ x.text) :
    c = '.' ∨ ∃ name, x = .normal name ∧ c ∈ name.toList := by
  cases x with
  | rootDir => cases h
  | normal name => exact Or.inr ⟨name, rfl, h⟩
  | _ =>
    left
    simpa [Component.text] using h

/-- The characters of the text of a path: separators, dots, and those of the names in it. -/
theorem mem_joined {path : PathBuf} {c : Char} (h : c ∈ joined path) :
    c = '/' ∨ c = '.' ∨ ∃ name, .normal name ∈ path ∧ c ∈ name.toList := by
  fun_induction joined path with
  | case1 => cases h
  | case2 x =>
    rcases Component.mem_text h with rfl | ⟨name, rfl, hc⟩
    · exact Or.inr (Or.inl rfl)
    · exact Or.inr (Or.inr ⟨name, List.mem_cons_self, hc⟩)
  | case3 x rest _ ih =>
    rcases List.mem_append.1 h with h | h
    · rcases Component.mem_text h with rfl | ⟨name, rfl, hc⟩
      · exact Or.inr (Or.inl rfl)
      · exact Or.inr (Or.inr ⟨name, List.mem_cons_self, hc⟩)
    · rcases List.mem_cons.1 h with rfl | h
      · exact Or.inl rfl
      · rcases ih h with h | h | ⟨name, hname, hc⟩
        · exact Or.inl h
        · exact Or.inr (Or.inl h)
        · exact Or.inr (Or.inr ⟨name, List.mem_cons_of_mem _ hname, hc⟩)

/-- The parent of a path has no characters that the path does not have, but for separators and
dots. -/
theorem mem_render_parent {path : String} {dir : PathBuf} {c : Char}
    (hdir : parent (components path) = some dir) (h : c ∈ (render dir).toList) :
    c = '/' ∨ c = '.' ∨ c ∈ path.toList := by
  rw [render, String.toList_ofList] at h
  split_ifs at h with hroot
  · exact Or.inl (List.mem_singleton.1 h)
  · rcases mem_joined h with h | h | ⟨name, hname, hc⟩
    · exact Or.inl h
    · exact Or.inr (Or.inl h)
    · right
      right
      have hsub : dir <+: components path := by
        unfold parent at hdir
        split at hdir
        · cases hdir
        · cases hdir
        · cases hdir
          exact List.dropLast_prefix _
      exact subset_of_mem_components (hsub.subset hname) hc

/-! ## Prefixes of texts -/

theorem prefix_append_iff {a b l : List Char} (ha : '/' ∉ a) (hl : l = [] ∨ l.head? = some '/') :
    a <+: b ++ l ↔ a <+: b := by
  refine ⟨fun h => ?_, fun h => h.trans (List.prefix_append b l)⟩
  rcases List.prefix_or_prefix_of_prefix h (List.prefix_append b l) with h' | ⟨s, rfl⟩
  · exact h'
  · have hs : s <+: l := (List.prefix_append_right_inj b).1 h
    cases s with
    | nil => simp
    | cons c s =>
      rcases hl with rfl | hl
      · exact absurd hs (by simp)
      · obtain ⟨l, rfl⟩ := hs
        cases Option.some.inj hl
        simp at ha

theorem append_slash_prefix_iff {a b x l : List Char} (ha : '/' ∉ a) (hb : '/' ∉ b)
    (hl : l = [] ∨ l.head? = some '/') : a ++ '/' :: x <+: b ++ l ↔ a = b ∧ '/' :: x <+: l := by
  constructor
  · intro h
    have hab : a <+: b := (prefix_append_iff ha hl).1 ((List.prefix_append a _).trans h)
    obtain ⟨s, rfl⟩ := hab
    rw [List.append_assoc, List.prefix_append_right_inj] at h
    cases s with
    | nil => exact ⟨(List.append_nil a).symm, h⟩
    | cons c s =>
      rw [List.cons_append, List.cons_prefix_cons] at h
      simp [← h.1] at hb
  · rintro ⟨rfl, h⟩
    exact (List.prefix_append_right_inj a).2 h

/-- A prefix of texts is a prefix of names, but for the last name, of which it may be a part. -/
theorem prefix_flatMap_iff {dir names : List String} {base : String}
    (hdir : ∀ name ∈ dir, '/' ∉ name.toList) (hbase : '/' ∉ base.toList)
    (hnames : ∀ name ∈ names, '/' ∉ name.toList) :
    (dir ++ [base]).flatMap (fun name => '/' :: name.toList) <+:
        names.flatMap (fun name => '/' :: name.toList) ↔
      ∃ name rest, names = dir ++ name :: rest ∧ base.toList <+: name.toList := by
  have hslash (names : List String) : names.flatMap (fun name => '/' :: name.toList) = [] ∨
      (names.flatMap fun name => '/' :: name.toList).head? = some '/' := by
    cases names with
    | nil => exact .inl rfl
    | cons name names => exact .inr rfl
  induction dir generalizing names with
  | nil =>
    cases names with
    | nil => simp
    | cons name names =>
      rw [List.nil_append, List.flatMap_cons, List.flatMap_cons, List.flatMap_nil, List.append_nil,
        List.cons_append, List.cons_prefix_cons, prefix_append_iff hbase (hslash names)]
      simp
  | cons d dir ih =>
    cases names with
    | nil => simp
    | cons name names =>
      have hd : '/' ∉ d.toList := hdir d List.mem_cons_self
      have hname : '/' ∉ name.toList := hnames name List.mem_cons_self
      have hrest : _ ↔ ∃ x rest, names = dir ++ x :: rest ∧ base.toList <+: x.toList :=
        ih (fun x hx => hdir x (List.mem_cons_of_mem _ hx))
          fun x hx => hnames x (List.mem_cons_of_mem _ hx)
      obtain ⟨x, hx⟩ : ∃ x,
          (dir ++ [base]).flatMap (fun name => '/' :: name.toList) = '/' :: x := by
        cases dir <;> exact ⟨_, rfl⟩
      rw [List.cons_append, List.flatMap_cons, List.flatMap_cons, List.cons_append,
        List.cons_append, List.cons_prefix_cons, hx,
        append_slash_prefix_iff hd hname (hslash names), ← hx, hrest, String.toList_inj]
      simp only [true_and, List.cons_append, List.cons.injEq]
      constructor
      · rintro ⟨rfl, x, rest, rfl, hprefix⟩
        exact ⟨x, rest, ⟨rfl, rfl⟩, hprefix⟩
      · rintro ⟨x, rest, ⟨rfl, rfl⟩, hprefix⟩
        exact ⟨rfl, x, rest, rfl, hprefix⟩

end Path

import Tenodera.Agent.IniConfig

/-!
# The repositories in pacman.conf

`list_repos_pacman` takes the brackets off a header, `remove_repo` looks for the header with one
pair of them, and only the first one knows that the section `options` is no repository:
`remove_law_iff`.
-/

namespace Tenodera.Agent.PacmanRepos

open Text IniConfig

/-! ## Listing -/

structure Repo where
  name : List Char
  server : List Char
  included : List Char
  sigLevel : List Char
  deriving DecidableEq

/-- The section that is being read. -/
structure Current where
  name : Option (List Char)
  server : List Char
  included : List Char
  sigLevel : List Char

/-- No section has begun. -/
def start : Current := ⟨none, [], [], []⟩

def options : List Char := "options".toList

/-- The repository that a section is. -/
def Current.saved (c : Current) : List Repo :=
  match c.name with
  | some name => if name ≠ options then [⟨name, c.server, c.included, c.sigLevel⟩] else []
  | none => []

/-- `line.trim_matches(|c| c == '[' || c == ']')`. -/
def trimBrackets (l : List Char) : List Char :=
  (l.dropWhile fun c => c = '[' || c = ']').rdropWhile fun c => c = '[' || c = ']'

/-- What is behind a word at the beginning, without an `=` and white space. -/
def valueOf (word l : List Char) : Option (List Char) :=
  if word.isPrefixOf l then
    some ((l.drop word.length).dropWhile fun c => c = '=' || isWhitespace c)
  else none

/-- A line of a section. -/
def Current.read (c : Current) (l : List Char) : Current :=
  match valueOf "Server".toList l with
  | some v => { c with server := v }
  | none =>
    match valueOf "Include".toList l with
    | some v => { c with included := v }
    | none =>
      match valueOf "SigLevel".toList l with
      | some v => { c with sigLevel := v }
      | none => c

/-- The loop of `list_repos_pacman`. -/
def listLoop : Current → List (List Char) → List Repo
  | c, [] => c.saved
  | c, line :: rest =>
    let l := trimmed line
    if l.head? = some '#' ∨ l = [] then listLoop c rest
    else if isHeader l then c.saved ++ listLoop ⟨some (trimBrackets l), [], [], []⟩ rest
    else listLoop (c.read l) rest

/-- `list_repos_pacman`. -/
def listReposPacman (content : List Char) : List Repo := listLoop start (linesOf content)

/-! ## Removing and adding -/

/-- The names that `remove_repo` and `add_repo` accept. -/
def isValidName (u : Alphanumeric) (name : List Char) : Bool :=
  name ≠ [] && name.all fun c => u.mem c || c = '-' || c = '_'

/-- The loop of `remove_repo`. -/
def removeLoop (target : List Char) : Bool → List (List Char) → List (List Char)
  | _, [] => []
  | skipping, line :: rest =>
    let t := trimmed line
    if t = target then removeLoop target true rest
    else if skipping ∧ ¬ isHeader t then removeLoop target true rest
    else line :: removeLoop target false rest

/-- The new text of `remove_repo` for pacman. -/
def removeRepo (content repo : List Char) : List Char :=
  ['\n'].intercalate (removeLoop (header repo) false (linesOf content)) ++ ['\n']

/-- `is_valid_repo_url`. -/
def isValidRepoUrl (url : List Char) : Bool :=
  (["http://", "https://", "ftp://", "file://"].any fun proto => proto.toList.isPrefixOf url) &&
    ['\x60', '$', '\n', '\r', ';', '|', '&'].all fun c => c ∉ url

/-- The text behind which `add_repo` for pacman has put a section. -/
def addRepo (content repo name : List Char) : List Char :=
  content ++ '\n' :: (header name ++ '\n' :: ("Server = ".toList ++ repo ++ ['\n']))

/-! ## The law of the three -/

/-- The headers of the sections. -/
def headers (lines : List (List Char)) : List (List Char) := (lines.map trimmed).filter isHeader

/-- The lines of the sections whose names are kept. -/
def sectionLoop (keep : List Char → Bool) : Bool → List (List Char) → List (List Char)
  | _, [] => []
  | kept, line :: rest =>
    let kept := if isHeader (trimmed line) then keep (trimBrackets (trimmed line)) else kept
    if kept then line :: sectionLoop keep kept rest else sectionLoop keep kept rest

/-- The lines are lines of the text, in this order, up to carriage returns at their ends. -/
def Preserved (lines : List (List Char)) (new : List Char) : Prop :=
  (lines.map bare).Sublist ((linesOf new).map bare)

/-- Removing a repository takes it off the list, and nothing else off the list and the text, and
undoes adding it. -/
def Law (content repo : List Char) : Prop :=
  listReposPacman (removeRepo content repo) =
    (listReposPacman content).filter (fun r => r.name ≠ repo) ∧
  Preserved (sectionLoop (· ≠ repo) true (linesOf content)) (removeRepo content repo) ∧
  Preserved (sectionLoop (· = options) false (linesOf content)) (removeRepo content repo) ∧
  ∀ url, isValidRepoUrl url → (∀ r ∈ listReposPacman content, r.name ≠ repo) →
    listReposPacman (removeRepo (addRepo content url repo) repo) = listReposPacman content

/-- The headers with this name are written with one pair of brackets, and if the name is that of
the options, none is. -/
def Plain (content repo : List Char) : Prop :=
  ∀ h ∈ headers (linesOf content), trimBrackets h = repo →
    if repo = options then h ≠ header repo else h = header repo

instance (lines : List (List Char)) (new : List Char) : Decidable (Preserved lines new) :=
  inferInstanceAs (Decidable (List.Sublist _ _))

instance (content repo : List Char) : Decidable (Plain content repo) :=
  inferInstanceAs (Decidable (∀ h ∈ headers (linesOf content), trimBrackets h = repo →
    if repo = options then h ≠ header repo else h = header repo))

section

variable {u : Alphanumeric} {content repo line target : List Char} {c d : Current}
  {lines rest : List (List Char)} {keep : List Char → Bool} {kept skipping : Bool}

/-! ## Names and headers -/

theorem of_isValidName (h : isValidName u repo) :
    repo ≠ [] ∧ ∀ c ∈ repo, c ≠ '[' ∧ c ≠ ']' ∧ c ≠ '\n' := by
  rw [isValidName, Bool.and_eq_true, decide_eq_true_iff, List.all_eq_true] at h
  refine ⟨h.1, fun c hc => ?_⟩
  have hmem := h.2 c hc
  refine ⟨?_, ?_, ?_⟩ <;> rintro rfl <;> rw [u.ascii _ (by decide)] at hmem <;>
    exact absurd hmem (by decide)

theorem trimBrackets_header (h : isValidName u repo) : trimBrackets (header repo) = repo := by
  obtain ⟨hne, hfree⟩ := of_isValidName h
  have hbracket : ∀ c ∈ repo, (decide (c = '[') || decide (c = ']')) = false := by
    intro c hc
    obtain ⟨hopen, hclose, -⟩ := hfree c hc
    simp [hopen, hclose]
  obtain ⟨c, cs, rfl⟩ := List.exists_cons_of_ne_nil hne
  rw [trimBrackets, header, List.dropWhile_cons_of_pos (by decide), List.cons_append,
    List.dropWhile_cons_of_neg (by rw [hbracket c List.mem_cons_self]; decide),
    ← List.cons_append, List.rdropWhile_concat_pos _ _ _ (by decide)]
  refine List.rdropWhile_eq_self_iff.2 fun _ => ?_
  rw [hbracket _ (List.getLast_mem _)]
  decide

theorem newline_notMem_header (h : isValidName u repo) : '\n' ∉ header repo := by
  intro hmem
  have hrepo : '\n' ∈ repo := by simpa [header] using hmem
  exact (of_isValidName h).2 _ hrepo |>.2.2 rfl

/-- A line whose trimmed text is the header that is removed is a header. -/
theorem isHeader_of_eq (h : trimmed line = header repo) : isHeader (trimmed line) = true := by
  rw [h]
  exact (isHeader_header repo).2.1

theorem headers_cons_of_header (h : isHeader (trimmed line) = true) :
    headers (line :: rest) = trimmed line :: headers rest :=
  List.filter_cons_of_pos h

theorem headers_cons_of_line (h : isHeader (trimmed line) = false) :
    headers (line :: rest) = headers rest :=
  List.filter_cons_of_neg (by simp [h])

/-! ## One line at a time -/

theorem listLoop_header (h : isHeader (trimmed line) = true) : listLoop c (line :: rest) =
    c.saved ++ listLoop ⟨some (trimBrackets (trimmed line)), [], [], []⟩ rest := by
  have hhead : (trimmed line).head? = some '[' := by
    rw [isHeader, Bool.and_eq_true, decide_eq_true_iff] at h
    exact h.1
  have hkept : ¬ ((trimmed line).head? = some '#' ∨ trimmed line = []) := by
    rintro (hcomment | hnil)
    · rw [hhead] at hcomment
      exact absurd hcomment (by decide)
    · rw [hnil] at hhead
      exact absurd hhead (by decide)
  rw [listLoop, if_neg hkept, if_pos h]

theorem Current.name_read (c : Current) (l : List Char) : (c.read l).name = c.name := by
  unfold Current.read
  split
  · rfl
  · split
    · rfl
    · split <;> rfl

/-- A line that begins no section leaves the name of the one that is being read. -/
theorem exists_listLoop_eq (h : isHeader (trimmed line) = false) (c : Current) :
    ∃ c' : Current, c'.name = c.name ∧ ∀ rest, listLoop c (line :: rest) = listLoop c' rest := by
  by_cases hskip : (trimmed line).head? = some '#' ∨ trimmed line = []
  · exact ⟨c, rfl, fun rest => if_pos hskip⟩
  · refine ⟨c.read (trimmed line), c.name_read _, fun rest => ?_⟩
    rw [listLoop, if_neg hskip, if_neg (by simp [h])]

theorem removeLoop_target (h : trimmed line = target) :
    removeLoop target skipping (line :: rest) = removeLoop target true rest :=
  if_pos h

theorem removeLoop_header (hne : trimmed line ≠ target) (h : isHeader (trimmed line) = true) :
    removeLoop target skipping (line :: rest) = line :: removeLoop target false rest := by
  rw [removeLoop, if_neg hne, if_neg (by simp [h])]

theorem removeLoop_line (hne : trimmed line ≠ target) (h : isHeader (trimmed line) = false) :
    removeLoop target skipping (line :: rest) =
      if skipping then removeLoop target true rest
      else line :: removeLoop target false rest := by
  rw [removeLoop, if_neg hne]
  simp [h]

/-! ## What is listed -/

theorem saved_filter_of_name (h : c.name = some repo) :
    c.saved.filter (fun r => r.name ≠ repo) = [] := by
  rw [Current.saved, h]
  show (if repo ≠ options then [_] else []).filter _ = []
  split_ifs <;> simp

theorem saved_filter_of_ne (h : c.name = some repo → repo = options) :
    c.saved.filter (fun r => r.name ≠ repo) = c.saved := by
  rw [List.filter_eq_self, Current.saved]
  intro r hr
  cases hname : c.name with
  | none => simp [hname] at hr
  | some name =>
    rw [hname] at hr
    change r ∈ if name ≠ options then [_] else [] at hr
    split_ifs at hr with hne
    · have hother : name ≠ repo := by
        rintro rfl
        exact hne (h hname)
      rw [List.mem_singleton.1 hr]
      exact decide_eq_true hother
    · cases hr

theorem map_name_saved (c : Current) :
    c.saved.map Repo.name = c.name.toList.filter (· ≠ options) := by
  rw [Current.saved]
  cases c.name with
  | none => rfl
  | some name =>
    show (if name ≠ options then [_] else []).map Repo.name = _
    split_ifs with hne <;> simp [hne]

/-- The names that are listed are those of the headers, without the options. -/
theorem map_name_listLoop : (listLoop c lines).map Repo.name =
    (c.name.toList ++ (headers lines).map trimBrackets).filter (· ≠ options) := by
  induction lines generalizing c with
  | nil =>
    rw [listLoop, map_name_saved]
    simp [headers]
  | cons line rest ih =>
    cases hheader : isHeader (trimmed line) with
    | true =>
      rw [listLoop_header hheader, headers_cons_of_header hheader, List.map_append, ih,
        map_name_saved, ← List.filter_append, List.map_cons]
      rfl
    | false =>
      obtain ⟨c', hname, hlist⟩ := exists_listLoop_eq hheader c
      rw [hlist, ih, hname, headers_cons_of_line hheader]

/-- A header ends what is listed before it. -/
theorem listLoop_append (h : isHeader (trimmed line) = true) (lines rest : List (List Char)) :
    listLoop c (lines ++ line :: rest) =
      listLoop c lines ++ listLoop ⟨some (trimBrackets (trimmed line)), [], [], []⟩ rest := by
  induction lines generalizing c with
  | nil => exact listLoop_header h
  | cons line' lines ih =>
    cases hheader : isHeader (trimmed line') with
    | true =>
      rw [List.cons_append, listLoop_header hheader, ih, listLoop_header hheader,
        List.append_assoc]
    | false =>
      obtain ⟨c', -, hlist⟩ := exists_listLoop_eq hheader c
      rw [List.cons_append, hlist, hlist, ih]

theorem listLoop_congr {lines' : List (List Char)} (h : lines.map trimmed = lines'.map trimmed) :
    listLoop c lines = listLoop c lines' := by
  induction lines generalizing c lines' with
  | nil => rw [List.map_eq_nil_iff.1 h.symm]
  | cons line rest ih =>
    obtain ⟨line', rest', rfl, hline, hrest⟩ := List.map_eq_cons_iff.1 h.symm
    rw [listLoop, listLoop, hline, ih hrest.symm, ih hrest.symm, ih hrest.symm]

/-- A blank line at the end changes nothing. -/
theorem listLoop_concat_nil : listLoop c (lines ++ [[]]) = listLoop c lines := by
  induction lines generalizing c with
  | nil => rfl
  | cons line rest ih =>
    cases hheader : isHeader (trimmed line) with
    | true => rw [List.cons_append, listLoop_header hheader, listLoop_header hheader, ih]
    | false =>
      obtain ⟨c', -, hlist⟩ := exists_listLoop_eq hheader c
      rw [List.cons_append, hlist, hlist, ih]

/-- The lines that stay are listed without the repository, before and behind its header. -/
theorem listLoop_removeLoop (hplain : ∀ h ∈ headers lines, trimBrackets h = repo →
    repo = options ∨ h = header repo) (hrepo : trimBrackets (header repo) = repo)
    (hc : c.name = some repo → repo = options) :
    listLoop c (removeLoop (header repo) false lines) =
      (listLoop c lines).filter (fun r => r.name ≠ repo) ∧
    ∀ d : Current, d.name = some repo →
      listLoop c (removeLoop (header repo) true lines) =
        c.saved ++ (listLoop d lines).filter fun r => r.name ≠ repo := by
  induction lines generalizing c with
  | nil =>
    refine ⟨(saved_filter_of_ne hc).symm, fun d hd => ?_⟩
    rw [removeLoop, listLoop, listLoop, saved_filter_of_name hd, List.append_nil]
  | cons line rest ih =>
    cases hheader : isHeader (trimmed line) with
    | true =>
      rw [headers_cons_of_header hheader] at hplain
      obtain ⟨hline, hrest⟩ := List.forall_mem_cons.1 hplain
      by_cases htarget : trimmed line = header repo
      · have hskip := (ih hrest hc).2 ⟨some repo, [], [], []⟩ rfl
        constructor
        · rw [removeLoop_target htarget, listLoop_header hheader, htarget, hrepo,
            List.filter_append, saved_filter_of_ne hc, hskip]
        · intro d hd
          rw [removeLoop_target htarget, listLoop_header hheader, htarget, hrepo,
            List.filter_append, saved_filter_of_name hd, List.nil_append, hskip]
      · have hnext : some (trimBrackets (trimmed line)) = some repo → repo = options :=
          fun heq => (hline (Option.some.inj heq)).resolve_right htarget
        have hkeep := (ih (c := ⟨some (trimBrackets (trimmed line)), [], [], []⟩) hrest hnext).1
        constructor
        · rw [removeLoop_header htarget hheader, listLoop_header hheader, listLoop_header hheader,
            List.filter_append, saved_filter_of_ne hc, hkeep]
        · intro d hd
          rw [removeLoop_header htarget hheader, listLoop_header hheader, listLoop_header hheader,
            List.filter_append, saved_filter_of_name hd, List.nil_append, hkeep]
    | false =>
      have htarget : trimmed line ≠ header repo := by
        intro heq
        rw [isHeader_of_eq heq] at hheader
        cases hheader
      rw [headers_cons_of_line hheader] at hplain
      obtain ⟨c', hname, hlist⟩ := exists_listLoop_eq hheader c
      constructor
      · rw [removeLoop_line htarget hheader, if_neg (by decide), hlist, hlist]
        exact (ih hplain (by rwa [hname])).1
      · intro d hd
        obtain ⟨d', hname', hlist'⟩ := exists_listLoop_eq hheader d
        rw [removeLoop_line htarget hheader, if_pos rfl, hlist']
        exact (ih hplain hc).2 d' (by rw [hname', hd])

/-! ## What stays in the text -/

/-- Only the header itself is taken off the headers. -/
theorem headers_removeLoop (htarget : isHeader target = true) :
    headers (removeLoop target skipping lines) = (headers lines).filter (· ≠ target) := by
  induction lines generalizing skipping with
  | nil => rfl
  | cons line rest ih =>
    by_cases heq : trimmed line = target
    · have hheader : isHeader (trimmed line) = true := by rw [heq, htarget]
      rw [removeLoop_target heq, headers_cons_of_header hheader, ih,
        List.filter_cons_of_neg (by simp [heq])]
    · cases hheader : isHeader (trimmed line) with
      | true =>
        rw [removeLoop_header heq hheader, headers_cons_of_header hheader,
          headers_cons_of_header hheader, ih, List.filter_cons_of_pos (by simp [heq])]
      | false =>
        rw [removeLoop_line heq hheader, headers_cons_of_line hheader]
        split_ifs
        · exact ih
        · rw [headers_cons_of_line hheader, ih]

theorem sectionLoop_cons_of_header (h : isHeader (trimmed line) = true) :
    sectionLoop keep kept (line :: rest) =
      if keep (trimBrackets (trimmed line)) then line :: sectionLoop keep true rest
      else sectionLoop keep false rest := by
  rw [sectionLoop, if_pos h]
  cases keep (trimBrackets (trimmed line)) <;> rfl

theorem sectionLoop_cons_of_line (h : isHeader (trimmed line) = false) :
    sectionLoop keep kept (line :: rest) =
      if kept then line :: sectionLoop keep kept rest else sectionLoop keep kept rest := by
  have hflag : (if isHeader (trimmed line) then keep (trimBrackets (trimmed line)) else kept) =
      kept := if_neg (by simp [h])
  rw [sectionLoop, hflag]

theorem sectionLoop_sublist : (sectionLoop keep kept lines).Sublist lines := by
  induction lines generalizing kept with
  | nil => exact List.Sublist.refl _
  | cons line rest ih =>
    cases hheader : isHeader (trimmed line) with
    | true =>
      rw [sectionLoop_cons_of_header hheader]
      split_ifs
      · exact ih.cons_cons line
      · exact ih.cons line
    | false =>
      rw [sectionLoop_cons_of_line hheader]
      split_ifs
      · exact ih.cons_cons line
      · exact ih.cons line

/-- The sections of other names stay. -/
theorem sectionLoop_sublist_removeLoop (hkeep : keep (trimBrackets target) = false)
    (htarget : isHeader target = true) (hkept : skipping = true → kept = false) :
    (sectionLoop keep kept lines).Sublist (removeLoop target skipping lines) := by
  induction lines generalizing kept skipping with
  | nil => exact List.Sublist.refl _
  | cons line rest ih =>
    by_cases heq : trimmed line = target
    · have hheader : isHeader (trimmed line) = true := by rw [heq, htarget]
      rw [removeLoop_target heq, sectionLoop_cons_of_header hheader, heq, hkeep,
        if_neg (by decide)]
      exact ih fun _ => rfl
    · cases hheader : isHeader (trimmed line) with
      | true =>
        rw [removeLoop_header heq hheader, sectionLoop_cons_of_header hheader]
        split_ifs
        · exact (ih (by decide)).cons_cons line
        · exact (ih (by decide)).cons line
      | false =>
        rw [removeLoop_line heq hheader, sectionLoop_cons_of_line hheader]
        cases skipping with
        | true =>
          rw [hkept rfl]
          exact ih fun _ => rfl
        | false =>
          cases kept with
          | true => exact (ih (by decide)).cons_cons line
          | false => exact (ih (by decide)).cons line

theorem removeLoop_eq_self (htarget : isHeader target = true) (h : target ∉ headers lines) :
    removeLoop target false lines = lines := by
  induction lines with
  | nil => rfl
  | cons line rest ih =>
    cases hheader : isHeader (trimmed line) with
    | true =>
      rw [headers_cons_of_header hheader, List.mem_cons, not_or] at h
      rw [removeLoop_header (Ne.symm h.1) hheader, ih h.2]
    | false =>
      have hne : trimmed line ≠ target := by
        rintro rfl
        rw [htarget] at hheader
        cases hheader
      rw [headers_cons_of_line hheader] at h
      rw [removeLoop_line hne hheader, if_neg (by decide), ih h]

theorem removeLoop_sublist : (removeLoop target skipping lines).Sublist lines := by
  induction lines generalizing skipping with
  | nil => exact List.Sublist.refl _
  | cons line rest ih =>
    rw [removeLoop]
    split_ifs
    · exact ih.cons line
    · exact ih.cons line
    · exact ih.cons_cons line

/-! ## The new text -/

/-- A blank line, or none. -/
def IsBlank (blank : List (List Char)) : Prop := blank = [] ∨ blank = [[]]

theorem listLoop_append_blank {blank : List (List Char)} (h : IsBlank blank) :
    listLoop c (lines ++ blank) = listLoop c lines := by
  rcases h with rfl | rfl
  · rw [List.append_nil]
  · exact listLoop_concat_nil

theorem headers_append (lines rest : List (List Char)) :
    headers (lines ++ rest) = headers lines ++ headers rest := by
  rw [headers, List.map_append, List.filter_append]
  rfl

theorem headers_append_blank {blank : List (List Char)} (h : IsBlank blank) :
    headers (lines ++ blank) = headers lines := by
  rcases h with rfl | rfl
  · rw [List.append_nil]
  · rw [headers_append]
    exact List.append_nil _

theorem map_trimmed_of_bare {lines' : List (List Char)} (h : lines.map bare = lines'.map bare) :
    lines.map trimmed = lines'.map trimmed := by
  have hbare (ls : List (List Char)) : ls.map trimmed = (ls.map bare).map trimmed := by
    rw [List.map_map]
    exact List.map_congr_left fun l _ => (trimmed_bare l).symm
  rw [hbare lines, h, ← hbare lines']

theorem bare_linesOf_removeRepo (content repo : List Char) : ∃ blank, IsBlank blank ∧
    (linesOf (removeRepo content repo)).map bare =
      (removeLoop (header repo) false (linesOf content) ++ blank).map bare := by
  by_cases hnil : removeLoop (header repo) false (linesOf content) = []
  · refine ⟨[[]], .inr rfl, ?_⟩
    rw [removeRepo, hnil]
    rfl
  · refine ⟨[], .inl rfl, ?_⟩
    rw [removeRepo, intercalate_newline hnil, List.append_nil, bare_linesOf_unlines]
    exact fun line hline => newline_notMem_of_mem_linesOf (removeLoop_sublist.subset hline)

theorem bare_linesOf_concat (content : List Char) : ∃ blank, IsBlank blank ∧
    (linesOf (content ++ ['\n'])).map bare = (linesOf content ++ blank).map bare := by
  by_cases hopen : content ≠ [] ∧ content.getLast? ≠ some '\n'
  · refine ⟨[], .inl rfl, ?_⟩
    rw [bare_linesOf_concat_newline hopen.1 hopen.2, List.append_nil]
  · refine ⟨[[]], .inr rfl, ?_⟩
    rw [not_and_or, not_not, not_not] at hopen
    rcases hopen with rfl | hended
    · rfl
    · obtain ⟨cs, rfl⟩ := List.getLast?_eq_some_iff.1 hended
      rw [List.append_assoc, List.singleton_append, linesOf_append]
      rfl

theorem listReposPacman_removeRepo (content repo : List Char) :
    listReposPacman (removeRepo content repo) =
      listLoop start (removeLoop (header repo) false (linesOf content)) := by
  obtain ⟨blank, hblank, hlines⟩ := bare_linesOf_removeRepo content repo
  rw [listReposPacman, listLoop_congr (map_trimmed_of_bare hlines), listLoop_append_blank hblank]

theorem preserved_of_sublist (h : rest.Sublist (removeLoop (header repo) false (linesOf content))) :
    Preserved rest (removeRepo content repo) := by
  obtain ⟨blank, -, hlines⟩ := bare_linesOf_removeRepo content repo
  rw [Preserved, hlines]
  exact (h.trans (List.sublist_append_left _ blank)).map bare

/-- A line that is preserved is a line of the new text, up to white space. -/
theorem exists_of_preserved (h : Preserved rest (removeRepo content repo)) (hline : line ∈ rest)
    (htrimmed : trimmed line ≠ []) :
    ∃ line' ∈ removeLoop (header repo) false (linesOf content),
      trimmed line' = trimmed line := by
  obtain ⟨blank, hblank, hlines⟩ := bare_linesOf_removeRepo content repo
  rw [Preserved, hlines] at h
  obtain ⟨line', hline', heq⟩ := List.mem_map.1 (h.subset (List.mem_map_of_mem hline))
  have hsame : trimmed line' = trimmed line := by
    rw [← trimmed_bare line', heq, trimmed_bare]
  rcases List.mem_append.1 hline' with hline' | hline'
  · exact ⟨line', hline', hsame⟩
  · rcases hblank with rfl | rfl
    · cases hline'
    · rw [List.mem_singleton.1 hline'] at hsame
      exact absurd hsame.symm htrimmed

/-! ## Adding -/

/-- The lines of the section that is added. -/
theorem linesOf_addRepo {url : List Char} (hrepo : '\n' ∉ header repo) (hurl : isValidRepoUrl url) :
    linesOf (addRepo content url repo) = linesOf (content ++ ['\n']) ++
      [stripCr (header repo), stripCr ("Server = ".toList ++ url)] := by
  have hfree : '\n' ∉ "Server = ".toList ++ url := by
    rw [isValidRepoUrl, Bool.and_eq_true, List.all_eq_true] at hurl
    have hmem := of_decide_eq_true (hurl.2 '\n' (by decide))
    rw [List.mem_append, not_or]
    exact ⟨by decide, hmem⟩
  rw [addRepo, linesOf_append, linesOf_append_newline hrepo, linesOf_append_newline hfree,
    linesOf_nil]

theorem isHeader_server (url : List Char) :
    isHeader (trimmed (stripCr ("Server = ".toList ++ url))) = false := by
  have hhead : (trimmed ("Server = ".toList ++ url)).head? = some 'S' := head?_trimmed _
  rw [trimmed_stripCr, isHeader, hhead]
  rfl

theorem headers_addRepo {url : List Char} (hrepo : '\n' ∉ header repo)
    (hurl : isValidRepoUrl url) :
    headers (linesOf (addRepo content url repo)) = headers (linesOf content) ++ [header repo] := by
  obtain ⟨blank, hblank, hlines⟩ := bare_linesOf_concat content
  obtain ⟨htrimmed, hheader, -, hstrip⟩ := isHeader_header repo
  rw [linesOf_addRepo hrepo hurl, headers_append, headers, map_trimmed_of_bare hlines, ← headers,
    headers_append_blank hblank, hstrip, headers_cons_of_header (by rw [htrimmed, hheader]),
    headers_cons_of_line (isHeader_server url), htrimmed]
  rfl

/-- The section that is added is listed at the end. -/
theorem listReposPacman_addRepo {url : List Char} (h : isValidName u repo)
    (hurl : isValidRepoUrl url) :
    (listReposPacman (addRepo content url repo)).filter (fun r => r.name ≠ repo) =
      (listReposPacman content).filter fun r => r.name ≠ repo := by
  obtain ⟨blank, hblank, hlines⟩ := bare_linesOf_concat content
  obtain ⟨htrimmed, hheader, -, hstrip⟩ := isHeader_header repo
  obtain ⟨c', hname, hlist⟩ := exists_listLoop_eq (isHeader_server url) ⟨some repo, [], [], []⟩
  rw [listReposPacman, linesOf_addRepo (newline_notMem_header h) hurl, hstrip,
    listLoop_append (by rw [htrimmed, hheader]), htrimmed, trimBrackets_header h, hlist,
    listLoop_congr (map_trimmed_of_bare hlines), listLoop_append_blank hblank, List.filter_append,
    listLoop, saved_filter_of_name hname, List.append_nil]
  rfl

/-! ## When the law holds -/

/-- Where the repository has plain headers, removing it takes it off the list. -/
theorem listReposPacman_removeRepo_of_plain (h : isValidName u repo)
    (hplain : ∀ h ∈ headers (linesOf content), trimBrackets h = repo →
      repo = options ∨ h = header repo) :
    listReposPacman (removeRepo content repo) =
      (listReposPacman content).filter fun r => r.name ≠ repo := by
  rw [listReposPacman_removeRepo]
  refine (listLoop_removeLoop hplain (trimBrackets_header h) fun hc => ?_).1
  cases hc

theorem preserved_of_keep (h : isValidName u repo) (hkeep : keep repo = false) :
    Preserved (sectionLoop keep kept (linesOf content)) (removeRepo content repo) := by
  refine preserved_of_sublist (sectionLoop_sublist_removeLoop ?_ (isHeader_header repo).2.1 ?_)
  · rwa [trimBrackets_header h]
  · intro hskip
    cases hskip

theorem law_of_plain (h : isValidName u repo) (hplain : Plain content repo) :
    Law content repo := by
  have hheaders : ∀ h ∈ headers (linesOf content), trimBrackets h = repo →
      repo = options ∨ h = header repo := by
    intro h hh hname
    have hwritten := hplain h hh hname
    split_ifs at hwritten with hoptions
    · exact .inl hoptions
    · exact .inr hwritten
  refine ⟨listReposPacman_removeRepo_of_plain h hheaders, preserved_of_keep h (by simp), ?_, ?_⟩
  · by_cases hoptions : repo = options
    · have hnone : header repo ∉ headers (linesOf content) := by
        intro hmem
        have hwritten := hplain _ hmem (trimBrackets_header h)
        rw [if_pos hoptions] at hwritten
        exact hwritten rfl
      refine preserved_of_sublist ?_
      rw [removeLoop_eq_self (isHeader_header repo).2.1 hnone]
      exact sectionLoop_sublist
    · exact preserved_of_keep h (by simpa using hoptions)
  · intro url hurl hnone
    have hadded : ∀ h ∈ headers (linesOf (addRepo content url repo)), trimBrackets h = repo →
        repo = options ∨ h = header repo := by
      rw [headers_addRepo (newline_notMem_header h) hurl]
      intro h hh hname
      rcases List.mem_append.1 hh with hh | hh
      · exact hheaders h hh hname
      · exact .inr (List.mem_singleton.1 hh)
    rw [listReposPacman_removeRepo_of_plain h hadded, listReposPacman_addRepo h hurl,
      List.filter_eq_self]
    exact fun r hr => decide_eq_true (hnone r hr)

theorem mem_sectionLoop {h : List Char} (hh : h ∈ headers lines) (hkeep : keep (trimBrackets h)) :
    ∃ line ∈ sectionLoop keep kept lines, trimmed line = h := by
  induction lines generalizing kept with
  | nil => cases hh
  | cons line rest ih =>
    cases hheader : isHeader (trimmed line) with
    | true =>
      rw [sectionLoop_cons_of_header hheader]
      rw [headers_cons_of_header hheader] at hh
      rcases List.mem_cons.1 hh with rfl | hh
      · rw [if_pos hkeep]
        exact ⟨line, List.mem_cons_self, rfl⟩
      · split_ifs
        · have hrest : ∃ line' ∈ sectionLoop keep true rest, trimmed line' = h := ih hh
          obtain ⟨line', hline', heq⟩ := hrest
          exact ⟨line', List.mem_cons_of_mem line hline', heq⟩
        · exact ih hh
    | false =>
      rw [sectionLoop_cons_of_line hheader]
      rw [headers_cons_of_line hheader] at hh
      split_ifs
      · have hrest : ∃ line' ∈ sectionLoop keep kept rest, trimmed line' = h := ih hh
        obtain ⟨line', hline', heq⟩ := hrest
        exact ⟨line', List.mem_cons_of_mem line hline', heq⟩
      · exact ih hh

/-- A header of the name that is written otherwise is still listed. -/
theorem eq_header_of_law (hrepo : repo ≠ options)
    (hlist : listReposPacman (removeRepo content repo) =
      (listReposPacman content).filter fun r => r.name ≠ repo)
    {h : List Char} (hh : h ∈ headers (linesOf content)) (hname : trimBrackets h = repo) :
    h = header repo := by
  by_contra hne
  have hstays : h ∈ headers (removeLoop (header repo) false (linesOf content)) := by
    rw [headers_removeLoop (isHeader_header repo).2.1]
    exact List.mem_filter.2 ⟨hh, decide_eq_true hne⟩
  have hlisted : repo ∈ (listReposPacman (removeRepo content repo)).map Repo.name := by
    rw [listReposPacman_removeRepo, map_name_listLoop]
    refine List.mem_filter.2 ⟨List.mem_append_right _ ?_, decide_eq_true hrepo⟩
    exact List.mem_map.2 ⟨h, hstays, hname⟩
  rw [hlist] at hlisted
  obtain ⟨r, hr, rfl⟩ := List.mem_map.1 hlisted
  exact of_decide_eq_true (List.mem_filter.1 hr).2 rfl

/-- The header of the options is not preserved if it is what is removed. -/
theorem ne_header_of_law (hlaw : Preserved (sectionLoop (· = options) false (linesOf content))
      (removeRepo content options)) {h : List Char} (hh : h ∈ headers (linesOf content))
    (hname : trimBrackets h = options) : h ≠ header options := by
  rintro rfl
  have hkept : ∃ line ∈ sectionLoop (· = options) false (linesOf content),
      trimmed line = header options := mem_sectionLoop hh (decide_eq_true hname)
  obtain ⟨line, hline, htrimmed⟩ := hkept
  obtain ⟨line', hline', heq⟩ := exists_of_preserved hlaw hline (by rw [htrimmed]; decide)
  have hheader : isHeader (trimmed line') = true := by
    rw [heq, htrimmed]
    exact (isHeader_header options).2.1
  have hmem : trimmed line' ∈ headers (removeLoop (header options) false (linesOf content)) :=
    List.mem_filter.2 ⟨List.mem_map_of_mem hline', hheader⟩
  rw [headers_removeLoop (isHeader_header options).2.1] at hmem
  exact of_decide_eq_true (List.mem_filter.1 hmem).2 (heq.trans htrimmed)

end

/-- The law holds of a text and a name iff the headers that are listed under the name are written
with one pair of brackets, and none of the options is. -/
theorem remove_law_iff (u : Alphanumeric) (content repo : List Char) (h : isValidName u repo) :
    Law content repo ↔ Plain content repo := by
  refine ⟨fun hlaw header hheader hname => ?_, law_of_plain h⟩
  split_ifs with hrepo
  · subst hrepo
    exact ne_header_of_law hlaw.2.2.1 hheader hname
  · exact eq_header_of_law hrepo hlaw.1 hheader hname

theorem remove_law_extra :
    Law "[options]\nColor\n[core]\nInclude = /m\n [extra]\nServer = s".toList "extra".toList :=
  (remove_law_iff asciiAlphanumeric _ _ (by decide)).2 (by decide)

/-- A repository with two pairs of brackets is listed, and stays when it is removed; the options
are removed like a repository. -/
theorem brackets_stay :
    (isValidName asciiAlphanumeric "extra".toList ∧
      listReposPacman (removeRepo "[[extra]]\nServer = s\n".toList "extra".toList) ≠
        (listReposPacman "[[extra]]\nServer = s\n".toList).filter
          (fun r => r.name ≠ "extra".toList)) ∧
    isValidName asciiAlphanumeric options ∧
      ¬ Preserved (sectionLoop (· = options) false (linesOf "[options]\nColor\n".toList))
        (removeRepo "[options]\nColor\n".toList options) := by
  decide

end Tenodera.Agent.PacmanRepos

import Tenodera.Agent.HomeConfinement
import Tenodera.Agent.Kdump
import Tenodera.Agent.Monitors

/-!
# The directories that may be read

`is_valid_dump_path` compares the text of a canonical path with the beginning of a text,
`validate_log_path` with one that ends in a slash, and `is_safe_cron_path` compares components.
`read_paths_iff` says for which paths what they accept lies in the directory they name.
-/

namespace Tenodera.Agent.Host

open Protocol Effect Path FileTree

/-! ## The validators -/

/-- `is_safe_cron_path`. -/
def isSafeCronPath (path : String) : Bool :=
  let p := components path
  if p = components "/etc/crontab" then true
  else
    match parent p, fileName p with
    | some dir, some name =>
      dir = components "/etc/cron.d" &&
        name.toList.all fun c => c.isAlphanum || c ∈ "-_.".toList
    | _, _ => false

/-- The path is that of one of these files, or in one of these directories, and nowhere leads up. -/
def Within (roots : List String) (path : String) : Prop :=
  (∃ root ∈ roots, components root <+: components path) ∧ .parentDir ∉ components path

/-- What is read as a dump leads into a directory of dumps. -/
def DumpsWithin (u : Text.Alphanumeric) (t : Tree) (links : ℕ) (cwd : Place)
    (path user password : String) : Prop :=
  ((isValidDumpPath path).ReturnsIf (answersOf t links cwd.loc) true →
    ∃ canonical, (canonicalize path).ReturnsIf (answersOf t links cwd.loc) (some canonical) ∧
      Within ["/var/crash", "/var/lib/kdump"] (render canonical)) ∧
  ∀ o, (readDumpDetails u path user password).AsksIf (answersOf t links cwd.loc) o →
    o = .canonicalize path ∨
    ∃ canonical, (canonicalize path).ReturnsIf (answersOf t links cwd.loc) (some canonical) ∧
      Within ["/var/crash", "/var/lib/kdump"] (render canonical)

/-- The path goes on from the directory with a name that begins with this one. -/
def Resembles (dir : PathBuf) (base : String) (path : PathBuf) : Prop :=
  ∃ name rest, path = dir ++ .normal name :: rest ∧ Text.startsWith name base

/-- The path is in a directory beside this one, whose name is a longer one. -/
def Beside (dir : PathBuf) (base : String) (path : PathBuf) : Prop :=
  ∃ name rest, path = dir ++ .normal name :: rest ∧ Text.startsWith name base ∧ name ≠ base

section

variable {t : Tree} {links : ℕ} {cwd : Place} {loc : Location} {u : Text.Alphanumeric}
  {path p user password base : String} {canonical : PathBuf} {dir : List String} {o : Op}

/-! ## Canonical paths -/

/-- The components of the text of a location. -/
theorem components_render (hloc : ∀ name ∈ loc, isName name ∧ '/' ∉ name.toList) :
    components (render (locationPath loc)) = locationPath loc := by
  cases loc with
  | nil => decide
  | cons name names =>
    have hslash : ∀ c ∈ locationPath (name :: names), '/' ∉ c.text := by
      intro c hc
      rcases List.mem_cons.1 hc with rfl | hc
      · exact List.not_mem_nil
      · obtain ⟨x, hx, rfl⟩ := List.mem_map.1 hc
        exact (hloc x hx).2
    have hnames : ((name :: names).map fun name => name.toList).filterMap component =
        (name :: names).map .normal := by
      rw [List.filterMap_map, ← List.filterMap_eq_map]
      refine List.filterMap_congr fun x hx => ?_
      have hx : isName (String.ofList x.toList) := by
        rw [String.ofList_toList]
        exact (hloc x hx).1
      rw [Function.comp_apply, component_of_isName hx, String.ofList_toList]
      rfl
    have hhead := head?_render_rootDir ((name :: names).map Component.normal)
    have hne : locationPath (name :: names) ≠ [] := List.cons_ne_nil _ _
    have hsplit : (render (locationPath (name :: names))).toList.splitOn '/' =
        [] :: (name :: names).map fun name => name.toList := by
      rw [render, if_neg (by simp [locationPath]), String.toList_ofList, splitOn_joined hne hslash,
        locationPath, List.map_cons, List.map_map]
      rfl
    rw [components, hsplit, firstComponents, locationPath, if_pos hhead,
      List.filterMap_cons_none rfl, hnames]
    rfl

/-- What a path canonicalises to is a location. -/
theorem exists_of_canonicalize
    (h : (canonicalize path).ReturnsIf (answersOf t links cwd.loc) (some canonical)) :
    ∃ loc, canonical = locationPath loc ∧ ∀ name ∈ loc, isName name ∧ '/' ∉ name.toList := by
  by_cases hpath : path = "" ∨ Text.hasNul path = true
  · rw [canonicalize, if_pos hpath] at h
    cases h
  · obtain ⟨hne, hnul⟩ := not_or.1 hpath
    have hanswer := (returnsIf_canonicalize hne (by simpa using hnul)).1 h
    obtain ⟨loc, hloc, rfl⟩ := Option.map_eq_some_iff.1 hanswer.symm
    exact ⟨loc, rfl, names_of_resolve hloc⟩

theorem returnsIf_isValidDumpPath_iff {R : ∀ o, Reply o → Prop} :
    (isValidDumpPath path).ReturnsIf R true ↔
      ∃ canonical, (canonicalize path).ReturnsIf R (some canonical) ∧
        (Text.startsWith (render canonical) "/var/crash" ∨
          Text.startsWith (render canonical) "/var/lib/kdump") := by
  rw [isValidDumpPath, Prog.returnsIf_bind]
  constructor
  · rintro ⟨_ | canonical, hcanonical, h⟩
    · cases h
    · refine ⟨canonical, hcanonical, ?_⟩
      have h : true = (_ || _) := h
      simpa using h.symm
  · rintro ⟨canonical, hcanonical, h⟩
    refine ⟨some canonical, hcanonical, ?_⟩
    change true = (_ || _)
    simpa using h

/-! ## A prefix of a text -/

/-- The comparison of texts finds the directories whose last name begins with the one given. -/
theorem startsWith_render_iff (hloc : ∀ name ∈ loc, '/' ∉ name.toList)
    (hdir : ∀ name ∈ dir, '/' ∉ name.toList) (hbase : '/' ∉ base.toList) (hne : base ≠ "") :
    Text.startsWith (render (locationPath loc)) (render (locationPath (dir ++ [base]))) ↔
      Resembles (locationPath dir) base (locationPath loc) := by
  have hnames : Resembles (locationPath dir) base (locationPath loc) ↔
      ∃ name rest, loc = dir ++ name :: rest ∧ base.toList <+: name.toList := by
    have hinj : Function.Injective Component.normal := fun _ _ h => Component.normal.inj h
    simp only [Resembles, Text.startsWith, List.isPrefixOf_iff_prefix, locationPath,
      List.cons_append, List.cons.injEq, true_and]
    constructor
    · rintro ⟨name, rest, h, hprefix⟩
      obtain ⟨a, b, rfl, ha, hb⟩ := List.map_eq_append_iff.1 h
      obtain ⟨name', b, rfl, hname, -⟩ := List.map_eq_cons_iff.1 hb
      cases hinj hname
      exact ⟨_, b, by rw [List.map_injective_iff.2 hinj ha], hprefix⟩
    · rintro ⟨name, rest, rfl, hprefix⟩
      exact ⟨name, rest.map .normal, by simp, hprefix⟩
  rw [hnames, ← prefix_flatMap_iff hdir hbase hloc, Text.startsWith, List.isPrefixOf_iff_prefix,
    toList_render_locationPath (by simp : dir ++ [base] ≠ [])]
  by_cases hnil : loc = []
  · subst hnil
    refine iff_of_false (fun h => ?_) (fun h => ?_)
    · have hlen := h.length_le
      have hpos : 0 < base.toList.length := by
        rw [List.length_pos_iff]
        exact fun h => hne (by simpa using h)
      simp [render, locationPath] at hlen
      omega
    · simp at h
  · rw [toList_render_locationPath hnil]

theorem Beside.resembles {dir path : PathBuf} (h : Beside dir base path) :
    Resembles dir base path := by
  obtain ⟨name, rest, hpath, hname, -⟩ := h
  exact ⟨name, rest, hpath, hname⟩

theorem resembles_of_in {dir path : PathBuf} (h : dir ++ [.normal base] <+: path) :
    Resembles dir base path := by
  obtain ⟨rest, rfl⟩ := h
  exact ⟨base, rest, by simp, List.isPrefixOf_iff_prefix.2 (List.prefix_refl _)⟩

/-- A path that resembles one in the directory is in it or in one beside it. -/
theorem Resembles.prefix_iff {dir path : PathBuf} (h : Resembles dir base path) :
    dir ++ [.normal base] <+: path ↔ ¬ Beside dir base path := by
  obtain ⟨name, rest, rfl, hname⟩ := h
  constructor
  · rintro ⟨rest', hrest⟩ ⟨name', rest'', hpath, -, hne⟩
    rw [← hrest, List.append_assoc, List.append_cancel_left_eq] at hpath
    exact hne (Component.normal.inj (List.cons.inj hpath).1).symm
  · intro h
    by_cases heq : name = base
    · exact ⟨rest, by simp [heq]⟩
    · exact absurd ⟨name, rest, rfl, hname, heq⟩ h

/-- The two directories of dumps are not in each other, nor is what resembles them. -/
theorem not_resembles_both {path : PathBuf} (hcrash : Resembles (components "/var") "crash" path) :
    ¬ Resembles (components "/var/lib") "kdump" path := by
  rintro ⟨name, rest, rfl, -⟩
  obtain ⟨name', rest', hpath, hname'⟩ := hcrash
  have hlib : components "/var/lib" ++ Component.normal name :: rest =
      components "/var" ++ .normal "lib" :: .normal name :: rest := by
    have hdir : components "/var/lib" = components "/var" ++ [.normal "lib"] := by decide
    rw [hdir, List.append_assoc]
    rfl
  rw [hlib, List.append_cancel_left_eq] at hpath
  cases hpath
  exact absurd hname' (by decide)

theorem startsWith_crash_iff (hloc : ∀ name ∈ loc, isName name ∧ '/' ∉ name.toList) :
    Text.startsWith (render (locationPath loc)) "/var/crash" ↔
      Resembles (components "/var") "crash" (locationPath loc) := by
  have htext : render (locationPath (["var"] ++ ["crash"])) = "/var/crash" := by decide
  have hdir : locationPath ["var"] = components "/var" := by decide
  rw [← htext, ← hdir]
  exact startsWith_render_iff (fun name hname => (hloc name hname).2) (by decide) (by decide)
    (by decide)

theorem startsWith_kdump_iff (hloc : ∀ name ∈ loc, isName name ∧ '/' ∉ name.toList) :
    Text.startsWith (render (locationPath loc)) "/var/lib/kdump" ↔
      Resembles (components "/var/lib") "kdump" (locationPath loc) := by
  have htext : render (locationPath (["var", "lib"] ++ ["kdump"])) = "/var/lib/kdump" := by decide
  have hdir : locationPath ["var", "lib"] = components "/var/lib" := by decide
  rw [← htext, ← hdir]
  exact startsWith_render_iff (fun name hname => (hloc name hname).2) (by decide) (by decide)
    (by decide)

/-- What is accepted as a dump lies in a directory of dumps iff it does not lie in one beside it. -/
theorem within_iff_not_beside (hloc : ∀ name ∈ loc, isName name ∧ '/' ∉ name.toList)
    (h : Text.startsWith (render (locationPath loc)) "/var/crash" ∨
      Text.startsWith (render (locationPath loc)) "/var/lib/kdump") :
    Within ["/var/crash", "/var/lib/kdump"] (render (locationPath loc)) ↔
      ¬ Beside (components "/var") "crash" (locationPath loc) ∧
        ¬ Beside (components "/var/lib") "kdump" (locationPath loc) := by
  have hup : .parentDir ∉ locationPath loc := by simp [locationPath]
  have hwithin : Within ["/var/crash", "/var/lib/kdump"] (render (locationPath loc)) ↔
      components "/var" ++ [.normal "crash"] <+: locationPath loc ∨
        components "/var/lib" ++ [.normal "kdump"] <+: locationPath loc := by
    have hpaths : components "/var/crash" = components "/var" ++ [.normal "crash"] ∧
        components "/var/lib/kdump" = components "/var/lib" ++ [.normal "kdump"] := by decide
    rw [Within, components_render hloc, and_iff_left hup, ← hpaths.1, ← hpaths.2]
    simp only [List.mem_cons, List.not_mem_nil, or_false, exists_eq_or_imp, exists_eq_left]
  rw [startsWith_crash_iff hloc, startsWith_kdump_iff hloc] at h
  rw [hwithin]
  rcases h with h | h
  · have hother : ¬ Resembles (components "/var/lib") "kdump" (locationPath loc) :=
      not_resembles_both h
    rw [or_iff_left fun hprefix => hother (resembles_of_in hprefix), h.prefix_iff,
      and_iff_left fun hbeside : Beside _ _ _ => hother hbeside.resembles]
  · have hother : ¬ Resembles (components "/var") "crash" (locationPath loc) := fun hcrash =>
      not_resembles_both hcrash h
    rw [or_iff_right fun hprefix => hother (resembles_of_in hprefix), h.prefix_iff,
      and_iff_right fun hbeside : Beside _ _ _ => hother hbeside.resembles]

/-! ## Logs and crontabs -/

theorem contains_of_parentDir_mem (h : .parentDir ∈ components path) :
    Text.contains path ".." := by
  rcases List.mem_append.1 h with h | h
  · unfold firstComponents at h
    split_ifs at h <;> simp at h
  · obtain ⟨part, hpart, hcomponent⟩ := List.mem_filterMap.1 h
    have htext := text_of_component hcomponent
    rw [Text.contains, decide_eq_true_eq]
    have hinfix := infix_of_mem_splitOn hpart
    rwa [← htext] at hinfix

/-- A log file that is accepted is in the directory of the log files. -/
theorem within_of_validateLogPath (h : Look.validateLogPath path = .ok p) :
    p = path ∧ Within ["/var/log"] path := by
  unfold Look.validateLogPath at h
  split_ifs at h with hinvalid hunder
  cases h
  simp only [not_or, not_not] at hinvalid
  refine ⟨rfl, ⟨"/var/log", List.mem_singleton_self _, ?_⟩, fun hup =>
    hinvalid.2.2 (contains_of_parentDir_mem hup)⟩
  rw [not_and_or, not_not, not_not, Text.startsWith, List.isPrefixOf_iff_prefix] at hunder
  rcases hunder with rfl | ⟨rest, hrest⟩
  · exact List.prefix_refl _
  · have hchars : path.toList =
        '/' :: (['v', 'a', 'r'] ++ '/' :: (['l', 'o', 'g'] ++ '/' :: rest)) := hrest.symm
    have hsplit : path.toList.splitOn '/' =
        [] :: ['v', 'a', 'r'] :: ['l', 'o', 'g'] :: rest.splitOn '/' := by
      rw [hchars, splitOn_slash, List.splitOn_append_cons_self_of_not_mem (by decide),
        List.splitOn_append_cons_self_of_not_mem (by decide)]
    have hfirst : firstComponents path.toList = [.rootDir] := by
      rw [firstComponents, hchars]
      rfl
    have hlog : components "/var/log" = [.rootDir, .normal "var", .normal "log"] := by decide
    rw [hlog, components, hsplit, hfirst]
    exact ⟨(rest.splitOn '/').filterMap component, rfl⟩

theorem eq_of_parent_of_fileName {q dir : PathBuf} {name : String} (hdir : parent q = some dir)
    (hname : fileName q = some name) : q = dir ++ [.normal name] := by
  unfold fileName at hname
  split at hname
  · rename_i last hlast
    cases hname
    rw [parent, hlast] at hdir
    rw [← Option.some.inj hdir]
    exact (List.dropLast_append_getLast? _ hlast).symm
  · cases hname

/-- A crontab that is accepted is that of the system or a file in its directory. -/
theorem within_of_isSafeCronPath (h : isSafeCronPath path) :
    Within ["/etc/crontab", "/etc/cron.d"] path := by
  have hknown : .parentDir ∉ components "/etc/crontab" ∧
      .parentDir ∉ components "/etc/cron.d" := by decide
  unfold isSafeCronPath at h
  dsimp only at h
  split_ifs at h with htab
  · refine ⟨⟨_, List.mem_cons_self, ?_⟩, ?_⟩
    · exact ⟨[], by rw [htab, List.append_nil]⟩
    · rw [htab]
      exact hknown.1
  · split at h
    next dir name hdir hname =>
      rw [Bool.and_eq_true, decide_eq_true_eq] at h
      obtain ⟨rfl, -⟩ := h
      have hpath : components path = components "/etc/cron.d" ++ [.normal name] :=
        eq_of_parent_of_fileName hdir hname
      refine ⟨⟨"/etc/cron.d", by simp, ?_⟩, ?_⟩
      · rw [hpath]
        exact List.prefix_append _ _
      · rw [hpath]
        simpa using hknown.2
    next => cases h

/-! ## Reading a dump -/

theorem asksIf_isValidDumpPath {R : ∀ o, Reply o → Prop}
    (h : (isValidDumpPath path).AsksIf R o) : o = .canonicalize path := by
  rw [isValidDumpPath, Prog.asksIf_bind] at h
  rcases h with h | ⟨_ | canonical, -, h⟩
  · unfold canonicalize at h
    split_ifs at h
    · cases h
    · exact (Prog.asksIf_perform _ _).1 h
  · cases h
  · cases h

/-- Beyond the check, a dump is looked at when its path is accepted. -/
theorem asksIf_readDumpDetails {R : ∀ o, Reply o → Prop}
    (h : (readDumpDetails u path user password).AsksIf R o) :
    o = .canonicalize path ∨ (isValidDumpPath path).ReturnsIf R true := by
  rw [readDumpDetails, Prog.asksIf_bind] at h
  rcases h with h | ⟨valid, hvalid, h⟩
  · exact .inl (asksIf_isValidDumpPath h)
  · cases valid with
    | false => cases h
    | true => exact .inr hvalid

theorem canonicalize_unique {canonical' : PathBuf}
    (h : (canonicalize path).ReturnsIf (answersOf t links cwd.loc) (some canonical))
    (h' : (canonicalize path).ReturnsIf (answersOf t links cwd.loc) (some canonical')) :
    canonical = canonical' := by
  unfold canonicalize at h h'
  split_ifs at h h' with hpath
  · cases h
  · have heq := (Prog.returnsIf_perform _ _).1 h
    have heq' := (Prog.returnsIf_perform _ _).1 h'
    exact Option.some.inj (heq.trans heq'.symm)

end

/-- The paths that the validators accept lie in the directories they name, iff the path of a dump
does not lead into a directory beside those of the dumps, with a longer name. -/
theorem read_paths_iff (u : Text.Alphanumeric) (t : Tree) (links : ℕ) (cwd : Place)
    (path user password : String) :
    (DumpsWithin u t links cwd path user password ∧
      (∀ p, Look.validateLogPath path = .ok p → p = path ∧ Within ["/var/log"] path) ∧
      (isSafeCronPath path → Within ["/etc/crontab", "/etc/cron.d"] path)) ↔
    ∀ canonical, (canonicalize path).ReturnsIf (answersOf t links cwd.loc) (some canonical) →
      ¬ Beside (components "/var") "crash" canonical ∧
        ¬ Beside (components "/var/lib") "kdump" canonical := by
  rw [and_iff_left ⟨fun p => within_of_validateLogPath, within_of_isSafeCronPath⟩]
  constructor
  · rintro ⟨hvalid, -⟩ canonical hcanonical
    by_contra hbeside
    obtain ⟨loc, rfl, hloc⟩ := exists_of_canonicalize hcanonical
    have haccepted : Text.startsWith (render (locationPath loc)) "/var/crash" ∨
        Text.startsWith (render (locationPath loc)) "/var/lib/kdump" := by
      rw [startsWith_crash_iff hloc, startsWith_kdump_iff hloc]
      rw [not_and_or, not_not, not_not] at hbeside
      exact hbeside.imp Beside.resembles Beside.resembles
    obtain ⟨canonical', hcanonical', hwithin⟩ :=
      hvalid (returnsIf_isValidDumpPath_iff.2 ⟨_, hcanonical, haccepted⟩)
    rw [canonicalize_unique hcanonical' hcanonical] at hwithin
    exact hbeside ((within_iff_not_beside hloc haccepted).1 hwithin)
  · intro hbeside
    have hvalid (h : (isValidDumpPath path).ReturnsIf (answersOf t links cwd.loc) true) :
        ∃ canonical, (canonicalize path).ReturnsIf (answersOf t links cwd.loc) (some canonical) ∧
          Within ["/var/crash", "/var/lib/kdump"] (render canonical) := by
      obtain ⟨canonical, hcanonical, haccepted⟩ := returnsIf_isValidDumpPath_iff.1 h
      obtain ⟨loc, rfl, hloc⟩ := exists_of_canonicalize hcanonical
      exact ⟨_, hcanonical, (within_iff_not_beside hloc haccepted).2 (hbeside _ hcanonical)⟩
    exact ⟨hvalid, fun o ho => (asksIf_readDumpDetails ho).imp_right hvalid⟩

/-- A host with a directory beside that of the dumps. -/
def besideTree : Tree :=
  .ofList [([], .dir), (["var"], .dir), (["var", "crash2"], .dir), (["var", "crash2", "x"], .file)]
    (by decide)

/-- A file beside the directory of the dumps is accepted. -/
theorem beside_accepted :
    ¬ DumpsWithin Text.asciiAlphanumeric besideTree 40 ⟨[], by simp⟩ "/var/crash2/x" "bob" "" := by
  rintro ⟨h, -⟩
  have hreply : (canonicalize "/var/crash2/x").ReturnsIf (answersOf besideTree 40 [])
      (some (locationPath ["var", "crash2", "x"])) := by
    refine (returnsIf_canonicalize (by decide) (by decide)).2 ?_
    have hresolve : besideTree.resolve 40 [] "/var/crash2/x" = some ["var", "crash2", "x"] := by
      decide +kernel
    change some _ = Option.map _ _
    rw [hresolve]
    rfl
  obtain ⟨canonical, hcanonical, ⟨root, hroot, hprefix⟩, -⟩ :=
    h (returnsIf_isValidDumpPath_iff.2 ⟨_, hreply, .inl (by decide +kernel)⟩)
  have heq : canonical = locationPath ["var", "crash2", "x"] :=
    canonicalize_unique hcanonical hreply
  rw [heq] at hprefix
  simp only [List.mem_cons, List.not_mem_nil, or_false] at hroot
  rcases hroot with rfl | rfl <;> revert hprefix <;> decide +kernel

end Tenodera.Agent.Host

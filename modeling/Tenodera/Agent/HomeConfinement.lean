import Tenodera.Agent.ShellScripts
import Tenodera.Lib.FileTree

/-!
# Limited access and the home of the user

What `file.write`, `file.mkdir` and `file.delete` touch on a host with a given tree of directories
and symbolic links, when they run without a password.  The checks look at the directory of a target
(`write_as_user`, `mkdir_as_user`) or at what the path leads to (`delete_as_user`), while `tee`
follows a link in the last place and `rm` removes it: `limited_confined_iff`.
-/

namespace Tenodera.Agent.Host

open Protocol Effect Path FileTree

/-! ## Commands on a tree -/

def locationPath (loc : Location) : PathBuf := .rootDir :: loc.map .normal

/-- The answers of a host with this tree; what else it answers is open. -/
def answersOf (t : Tree) (links : ℕ) (cwd : Location) : ∀ o, Reply o → Prop
  | .canonicalize path, r => r = (t.resolve links cwd path).map locationPath
  | _, _ => True

/-- The command behind `sudo` and the shell. -/
def finalCommand (argv : List String) : Option (List String) :=
  match stripSudo argv with
  | ["sh", "-c", script] => (scriptProcess script []).map Shell.Process.argv
  | argv => some argv

/-- What `rm -r` removes: a link itself, a directory with what is in it.  Behind a slash it is the
directory that the path leads to. -/
def RemovesAll (t : Tree) (links : ℕ) (cwd : Location) (path : String) (loc : Location) : Prop :=
  (∃ e, t.entry links cwd path = some e ∧ (t.node e).isSome ∧
    if t.node e = some .dir then e <+: loc else loc = e) ∨
  ((parts path).getLast? = some "" ∧ ∃ dir, t.resolve links cwd path = some dir ∧ dir <+: loc)

/-- The objects that a command creates, writes or removes, as far as the permissions allow it. -/
def Touches (t : Tree) (links : ℕ) (cwd : Location) : List String → Location → Prop
  | ["tee", "--", path], loc =>
    t.openTarget links cwd path = some loc ∧ t.node loc ≠ some .dir
  | ["mkdir", "--", path], loc => t.dirEntry links cwd path = some loc ∧ t.node loc = none
  | ["rm", "--", path], loc =>
    t.entry links cwd path = some loc ∧ (t.node loc).isSome ∧ t.node loc ≠ some .dir
  | ["rm", "-r", "--", path], loc => RemovesAll t links cwd path loc
  | _, _ => False

/-- The object really lies in the home of the user. -/
def InHome (user : String) (loc : Location) : Prop := startsWith (locationPath loc) (home user)

/-- Whatever the program runs touches objects in the home of the user only. -/
def Confined (t : Tree) (links : ℕ) (cwd : Location) (user : String) (p : HostM Value) : Prop :=
  ∀ c, p.AsksIf (answersOf t links cwd) (.run c) → ∀ argv, finalCommand c.argv = some argv →
    ∀ loc, Touches t links cwd argv loc → InHome user loc

/-- The path names a link in the home through which a file outside is written. -/
def LeadsOut (t : Tree) (links : ℕ) (cwd : Location) (user path : String) : Prop :=
  ∃ e target loc, t.entry links cwd path = some e ∧ InHome user e ∧
    t.node e = some (.link target) ∧ t.openTarget links cwd path = some loc ∧
    t.node loc ≠ some .dir ∧ ¬ InHome user loc

/-- The path names a link outside the home that leads into it. -/
def LeadsIn (t : Tree) (links : ℕ) (cwd : Location) (user path : String) : Prop :=
  ∃ e target loc, t.entry links cwd path = some e ∧ ¬ InHome user e ∧
    t.node e = some (.link target) ∧ t.resolve links cwd path = some loc ∧ InHome user loc

section

variable {u : Text.Alphanumeric} {t : Tree} {links : ℕ} {cwd loc dir e : Location}
  {user path content name : String} {options : Value} {init blanks : List String}
  {R : ∀ o, Reply o → Prop} {c : Command}

/-! ## Locations -/

theorem InHome.mono (h : InHome user loc) {loc' : Location} (hbelow : loc <+: loc') :
    InHome user loc' := by
  have hpath : locationPath loc <+: locationPath loc' := by
    obtain ⟨rest, rfl⟩ := hbelow
    exact ⟨rest.map .normal, by simp [locationPath]⟩
  exact List.isPrefixOf_iff_prefix.2 ((List.isPrefixOf_iff_prefix.1 h).trans hpath)

theorem joinName_locationPath (dir : Location) (name : String) :
    joinName (locationPath dir) (some name) = locationPath (dir ++ [name]) := by
  simp [joinName, locationPath]

/-- The text of a location. -/
theorem toList_render_locationPath (hne : loc ≠ []) :
    (render (locationPath loc)).toList = loc.flatMap fun name => '/' :: name.toList := by
  have hjoined (name : String) (names : List String) :
      joined ((name :: names).map .normal) =
        name.toList ++ names.flatMap fun name => '/' :: name.toList := by
    induction names generalizing name with
    | nil => exact (List.append_nil _).symm
    | cons name' names ih =>
      change name.toList ++ '/' :: joined ((name' :: names).map .normal) = _
      rw [ih]
      rfl
  obtain ⟨name, names, rfl⟩ := List.exists_cons_of_ne_nil hne
  rw [render, String.toList_ofList, if_neg (by simp [locationPath])]
  change '/' :: joined ((name :: names).map .normal) = _
  rw [hjoined]
  rfl

/-! ## Programs on a tree -/

theorem returnsIf_canonicalize (hpath : path ≠ "") (hnul : Text.hasNul path = false)
    {r : Option PathBuf} :
    (canonicalize path).ReturnsIf R r ↔ R (.canonicalize path) r := by
  rw [canonicalize, if_neg (not_or.2 ⟨hpath, by simp [hnul]⟩)]
  change (perform (.canonicalize path)).ReturnsIf R r ↔ R (.canonicalize path) r
  exact Prog.returnsIf_perform _ _

/-- The target that the checks of `write_as_user` and `mkdir_as_user` look at, for a path that ends
in a name. -/
theorem returnsIf_resolveTarget_iff (hHas : HasParent path) (hnul : Text.hasNul path = false)
    (hparts : parts path = init ++ name :: blanks) (hblanks : ∀ b ∈ blanks, b = "")
    (hname : isName name) (hwalk : walk t FileTree.refuse links (start cwd path) init = some dir)
    {target : PathBuf} :
    (resolveTarget path).ReturnsIf (answersOf t links cwd) target ↔
      target = locationPath (dir ++ [name]) := by
  obtain ⟨d, hcomponents, hresolve⟩ := resolve_render_dropLast hparts hblanks hname hwalk
  have hparent : parent (components path) = some d := by
    simp [parent, hcomponents]
  have hfile : fileName (components path) = some name := by
    simp [fileName, hcomponents]
  have hrender : render d ≠ "" := by
    obtain ⟨d', hd', hne⟩ := hHas
    rw [hparent] at hd'
    rwa [Option.some.inj hd']
  rw [resolveTarget, hparent]
  simp only [Prog.returnsIf_bind, answersOf, hresolve hrender, Option.map_some, exists_eq_left,
    returnsIf_canonicalize hrender (hasNul_render_parent hparent hnul), Prog.returnsIf_pure, hfile,
    joinName_locationPath]

/-- What passes the checks of `write_as_user` and `mkdir_as_user` is named in the home. -/
theorem inHome_of_passes (hu : isValidUsername u user) (hnul : Text.hasNul path = false)
    (hpasses : PassesAsHome (answersOf t links cwd) path user)
    (hparts : parts path = init ++ name :: blanks) (hblanks : ∀ b ∈ blanks, b = "")
    (hname : isName name) (hwalk : walk t FileTree.refuse links (start cwd path) init = some dir) :
    HasParent path ∧ InHome user (dir ++ [name]) := by
  obtain ⟨target, htarget, hhome⟩ := hpasses
  by_cases hHas : HasParent path
  · rw [returnsIf_resolveTarget_iff hHas hnul hparts hblanks hname hwalk] at htarget
    rw [htarget] at hhome
    exact ⟨hHas, hhome⟩
  · rw [eq_of_returns_resolveTarget hHas htarget.returns] at hhome
    exact absurd (hasParent_of_startsWith hu hhome) hHas

theorem finalCommand_sudoDirect (user : String) (argv : List String)
    (h : ∀ script, argv ≠ ["sh", "-c", script]) :
    finalCommand ("sudo" :: "-n" :: "-u" :: user :: "--" :: argv) = some argv := by
  have hstrip : stripSudo ("sudo" :: "-n" :: "-u" :: user :: "--" :: argv) = argv := rfl
  rw [finalCommand, hstrip]
  split
  · exact absurd rfl (h _)
  · rfl

theorem finalCommand_write (user path content : String) :
    finalCommand ["sudo", "-n", "-u", user, "--", "sh", "-c",
      decodeInto ("tee -- " ++ shellEscape path) content] = some ["tee", "--", path] := by
  change (scriptProcess _ []).map Shell.Process.argv = _
  rw [scriptProcess_decodeInto (pipeline_tee path)]
  rfl

/-! ## Writing -/

/-- A location above an object is a directory. -/
theorem node_dropLast (h : t.node loc = some .dir) : t.node loc.dropLast = some .dir := by
  cases loc using List.reverseRecOn with
  | nil => exact h
  | append_singleton loc name =>
    rw [List.dropLast_concat]
    exact t.node_parent loc name (by rw [h]; rfl)

/-- What `tee` writes to is the entry that its path names, or a link is there. -/
theorem openTarget_cases (h : t.openTarget links cwd path = some loc)
    (hdir : t.node loc ≠ some .dir) :
    ∃ init name dir, parts path = init ++ [name] ∧ isName name ∧
      walk t FileTree.refuse links (start cwd path) init = some dir ∧
      t.entry links cwd path = some (dir ++ [name]) ∧
      (loc = dir ++ [name] ∨ ∃ target, t.node (dir ++ [name]) = some (.link target)) := by
  unfold Tree.openTarget FileTree.follow at h
  split_ifs at h with hpath
  have hne : parts path ≠ [] := by
    rw [parts, ne_eq, List.map_eq_nil_iff]
    exact List.splitOn_ne_nil _ _
  obtain ⟨init, name, hparts⟩ : ∃ init name, parts path = init ++ [name] :=
    ⟨_, _, (List.dropLast_append_getLast hne).symm⟩
  have hmissing : ∀ loc name rest, rest ≠ [] → createLast loc name rest = none := by
    intro loc name rest hrest
    cases rest with
    | nil => exact absurd rfl hrest
    | cons _ _ => rfl
  rw [hparts] at h
  obtain ⟨dir, hwalk, m, hlast⟩ := exists_of_walk_append hmissing (List.cons_ne_nil _ _) h
  have hdirNode := dir_of_walk_cons hlast
  by_cases hname : isName name
  · refine ⟨init, name, dir, hparts, hname, hwalk, ?_, ?_⟩
    · rw [Tree.entry, hparts]
      exact entryOf_concat hname hwalk hdirNode
    · rw [walk_name hdirNode hname] at hlast
      split at hlast
      · exact .inl (Option.some.inj hlast).symm
      · exact .inr ⟨_, ‹_›⟩
      · rw [walk_nil] at hlast
        exact .inl (Option.some.inj hlast).symm
  -- the path ends in a directory, which cannot be written to
  · rw [walk_cons, if_neg (not_not.2 hdirNode), walk_nil, walk_nil] at hlast
    split_ifs at hlast with hdot hup
    · exact absurd (Option.some.inj hlast ▸ hdirNode) hdir
    · exact absurd (Option.some.inj hlast ▸ node_dropLast hdirNode) hdir
    · simp_all [isName]

theorem confined_writeAsUser_iff :
    Confined t links cwd user (writeAsUser u path content user) ↔
      (Text.hasNul path = false ∧ isValidUsername u user ∧ HasParent path →
        ¬ LeadsOut t links cwd user path) := by
  constructor
  · rintro h ⟨hnul, hu, hHas⟩ ⟨e, target, loc, hentry, hhome, hlink, hopen, hdir, hout⟩
    obtain ⟨init, name, dir, hparts, hname, hwalk, -, rfl⟩ := eq_concat_of_entryOf hentry
    have htarget := (returnsIf_resolveTarget_iff hHas hnul hparts (fun _ hb => by cases hb) hname
      hwalk).2 rfl
    refine hout (h _ (asksIf_writeAsUser_iff.2 ⟨⟨hu, ⟨_, htarget, hhome⟩, hnul⟩, rfl⟩) _
      (finalCommand_write user path content) loc ⟨hopen, hdir⟩)
  · intro h c hc argv hargv loc htouches
    obtain ⟨⟨hu, hpasses, hnul⟩, rfl⟩ := asksIf_writeAsUser_iff.1 hc
    rw [finalCommand_write] at hargv
    cases Option.some.inj hargv
    obtain ⟨hopen, hdir⟩ := htouches
    obtain ⟨init, name, dir, hparts, hname, hwalk, hentry, rfl | ⟨target, hlink⟩⟩ :=
      openTarget_cases hopen hdir
    · exact (inHome_of_passes hu hnul hpasses hparts (fun _ hb => by cases hb) hname hwalk).2
    -- a link is in the last place
    · obtain ⟨hHas, hhome⟩ :=
        inHome_of_passes hu hnul hpasses hparts (fun _ hb => by cases hb) hname hwalk
      by_contra hout
      exact h ⟨hnul, hu, hHas⟩ ⟨_, target, loc, hentry, hhome, hlink, hopen, hdir, hout⟩

theorem confined_pure (v : Value) : Confined t links cwd user (pure v) := fun _ h => h.elim

theorem confined_fileWrite_iff (hpw : strField options "password" = "") :
    Confined t links cwd (strField options "_user") (fileWrite u options) ↔
      (MayCreate u options →
        ¬ LeadsOut t links cwd (strField options "_user") (strField options "path")) := by
  unfold fileWrite MayCreate
  by_cases hpath : strField options "path" = ""
  · simp [hpath, confined_pure]
  simp only [hpath, hpw, if_true, if_false, confined_writeAsUser_iff, ne_eq, not_false_iff,
    true_and]

/-! ## Making a directory -/

theorem confined_mkdirAsUser : Confined t links cwd user (mkdirAsUser u path user) := by
  intro c hc argv hargv loc htouches
  obtain ⟨hu, hpasses, hc⟩ := asksIf_inHomeOf_iff.1 hc
  obtain ⟨⟨-, hnul⟩, rfl⟩ := asksIf_sudoDirect_iff.1 hc
  rw [finalCommand_sudoDirect _ _ (by simp)] at hargv
  cases Option.some.inj hargv
  obtain ⟨hentry, -⟩ := htouches
  obtain ⟨init, name, dir, hpieces, hname, hwalk, -, rfl⟩ := eq_concat_of_entryOf hentry
  have hparts : parts path = init ++ name :: (parts path).rtakeWhile (· = "") := by
    have hsplit := List.rdropWhile_append_rtakeWhile (p := (· = "")) (l := parts path)
    rw [hpieces, List.append_assoc] at hsplit
    exact hsplit.symm
  have hblanks : ∀ b ∈ (parts path).rtakeWhile (· = ""), b = "" := fun b hb => by
    simpa using List.mem_rtakeWhile_imp hb
  have hnul : Text.hasNul path = false := (Bool.or_false _).symm.trans hnul
  exact (inHome_of_passes hu hnul hpasses hparts hblanks hname hwalk).2

theorem confined_fileMkdir (hpw : strField options "password" = "") :
    Confined t links cwd (strField options "_user") (fileMkdir u options) := by
  unfold fileMkdir
  by_cases hpath : strField options "path" = ""
  · simp [hpath, confined_pure]
  · simp [hpath, hpw, confined_mkdirAsUser]

/-! ## Deleting -/

/-- What `rm` removes is a link, or what its path leads to. -/
theorem entry_cases {r : Location} (hentry : t.entry links cwd path = some e)
    (hsome : (t.node e).isSome) (hresolve : t.resolve links cwd path = some r) :
    e = r ∨ ∃ target, t.node e = some (.link target) := by
  obtain ⟨init, name, dir, hparts, hname, hwalk, hdir, rfl⟩ := eq_concat_of_entryOf hentry
  unfold Tree.resolve FileTree.follow at hresolve
  split_ifs at hresolve
  rw [hparts] at hresolve
  obtain ⟨dir', hwalk', m, hlast⟩ :=
    exists_of_walk_append (fun _ _ _ _ => rfl) (List.cons_ne_nil _ _) hresolve
  rw [hwalk] at hwalk'
  cases Option.some.inj hwalk'
  rw [walk_name hdir hname] at hlast
  split at hlast
  · rename_i hnone
    rw [hnone] at hsome
    cases hsome
  · exact .inr ⟨_, ‹_›⟩
  · rw [walk_nil] at hlast
    exact .inl (Option.some.inj hlast)

theorem asksIf_deleteAsUser_iff (hpath : path ≠ "") :
    (deleteAsUser u path user).AsksIf (answersOf t links cwd) (.run c) ↔
      (Text.hasNul path = false ∧ isValidUsername u user) ∧
        (∃ r, t.resolve links cwd path = some r ∧ InHome user r) ∧
        ∃ recursive,
          c = ⟨none, "sudo" :: "-n" :: "-u" :: user :: "--" :: rmArgs recursive path, none⟩ := by
  unfold deleteAsUser
  by_cases hu : isValidUsername u user
  swap
  · simp [hu]
  rw [if_neg (not_not.2 hu), Prog.asksIf_bind,
    or_iff_right fun h : (canonicalize path).AsksIf _ _ => not_asks_canonicalize h.asks]
  simp only [hu, and_true]
  constructor
  · rintro ⟨_ | canonical, hr, h⟩
    · cases h
    change (if ¬ startsWith canonical (home user) then _ else _ : HostM Value).AsksIf _ _ at h
    split_ifs at h with hhome
    · rcases (Prog.asksIf_bind _ _ _).1 h with h | ⟨recursive, -, h⟩
      · cases (Prog.asksIf_perform _ _).1 h
      obtain ⟨⟨-, hnul⟩, rfl⟩ := asksIf_sudoDirect_iff.1 h
      rw [any_hasNul_rmArgs] at hnul
      have hcanonical := (returnsIf_canonicalize hpath hnul).1 hr
      obtain ⟨r, hresolve, rfl⟩ := Option.map_eq_some_iff.1 hcanonical.symm
      exact ⟨hnul, ⟨r, hresolve, hhome⟩, recursive, rfl⟩
    · cases h
  · rintro ⟨hnul, ⟨r, hresolve, hhome⟩, recursive, rfl⟩
    refine ⟨some (locationPath r), (returnsIf_canonicalize hpath hnul).2 ?_, ?_⟩
    · rw [answersOf, hresolve]
      rfl
    · change (if ¬ startsWith (locationPath r) (home user) then _ else _ : HostM Value).AsksIf _ _
      have hhome : startsWith (locationPath r) (home user) := hhome
      rw [if_neg (not_not.2 hhome), Prog.asksIf_bind]
      refine .inr ⟨recursive, (Prog.returnsIf_perform _ _).2 trivial, ?_⟩
      refine asksIf_sudoDirect_iff.2 ⟨⟨hasNul_of_isValidUsername hu, ?_⟩, rfl⟩
      rw [any_hasNul_rmArgs, hnul]

theorem finalCommand_rm (recursive : Bool) :
    finalCommand ("sudo" :: "-n" :: "-u" :: user :: "--" :: rmArgs recursive path) =
      some (rmArgs recursive path) := by
  cases recursive <;> exact finalCommand_sudoDirect _ _ (by simp [rmArgs])

/-- What `rm` touches lies under what its path leads to, or is a link. -/
theorem touches_rm_cases {recursive : Bool} {r : Location}
    (h : Touches t links cwd (rmArgs recursive path) loc)
    (hresolve : t.resolve links cwd path = some r) :
    r <+: loc ∨ t.entry links cwd path = some loc ∧ ∃ target, t.node loc = some (.link target) := by
  cases recursive with
  | false =>
    obtain ⟨hentry, hsome, -⟩ := h
    rcases entry_cases hentry hsome hresolve with rfl | hlink
    · exact .inl (List.prefix_refl _)
    · exact .inr ⟨hentry, hlink⟩
  | true =>
    rcases h with ⟨e, hentry, hsome, h⟩ | ⟨-, dir, hdir, h⟩
    · rcases entry_cases hentry hsome hresolve with rfl | ⟨target, hlink⟩
      · split_ifs at h
        · exact .inl h
        · exact .inl (h ▸ List.prefix_refl _)
      · rw [hlink, if_neg (by simp)] at h
        subst h
        exact .inr ⟨hentry, target, hlink⟩
    · rw [hresolve] at hdir
      cases Option.some.inj hdir
      exact .inl h

theorem confined_deleteAsUser_iff (hpath : path ≠ "") :
    Confined t links cwd user (deleteAsUser u path user) ↔
      (Text.hasNul path = false ∧ isValidUsername u user → ¬ LeadsIn t links cwd user path) := by
  constructor
  · rintro h hvalid ⟨e, target, r, hentry, hout, hlink, hresolve, hhome⟩
    have hasks := (asksIf_deleteAsUser_iff hpath).2 ⟨hvalid, ⟨r, hresolve, hhome⟩, false, rfl⟩
    refine hout (h _ hasks _ (finalCommand_rm false) e ⟨hentry, ?_⟩)
    rw [hlink]
    exact ⟨rfl, by simp⟩
  · intro h c hc argv hargv loc htouches
    obtain ⟨hvalid, ⟨r, hresolve, hhome⟩, recursive, rfl⟩ := (asksIf_deleteAsUser_iff hpath).1 hc
    rw [finalCommand_rm] at hargv
    cases Option.some.inj hargv
    rcases touches_rm_cases htouches hresolve with hprefix | ⟨hentry, target, hlink⟩
    · exact hhome.mono hprefix
    · by_contra hout
      exact h hvalid ⟨loc, target, r, hentry, hout, hlink, hresolve, hhome⟩

theorem confined_fileDelete_iff (hpw : strField options "password" = "") :
    Confined t links cwd (strField options "_user") (fileDelete u options) ↔
      (MayDelete u options →
        ¬ LeadsIn t links cwd (strField options "_user") (strField options "path")) := by
  unfold fileDelete MayDelete
  by_cases hpath : strField options "path" = ""
  · simp [hpath, confined_pure]
  simp only [hpath, hpw, if_true, if_false, confined_deleteAsUser_iff hpath, ne_eq, not_false_iff,
    true_and]

end

/-- Without a password nothing outside the home of the user is touched, iff no link in the last
place leads from the home out of it, when it is written to, or into the home from outside, when it
is deleted.  A new directory is always in the home. -/
theorem limited_confined_iff (u : Text.Alphanumeric) (t : Tree) (links : ℕ) (cwd : Location)
    (options : Value) (hpw : strField options "password" = "") :
    (Confined t links cwd (strField options "_user") (fileWrite u options) ↔
      (MayCreate u options →
        ¬ LeadsOut t links cwd (strField options "_user") (strField options "path"))) ∧
    Confined t links cwd (strField options "_user") (fileMkdir u options) ∧
    (Confined t links cwd (strField options "_user") (fileDelete u options) ↔
      (MayDelete u options →
        ¬ LeadsIn t links cwd (strField options "_user") (strField options "path"))) :=
  ⟨confined_fileWrite_iff hpw, confined_fileMkdir hpw, confined_fileDelete_iff hpw⟩

/-- In the home of bob a link leads out of it, and a link elsewhere leads into it. -/
def bobsTree : Tree :=
  .ofList [([], .dir), (["home"], .dir), (["home", "bob"], .dir), (["home", "bob", "notes"], .file),
    (["home", "bob", "out"], .link "/tmp/new"), (["tmp"], .dir),
    (["tmp", "in"], .link "/home/bob/notes")] (by decide)

def bobsRequest (path : String) : Value :=
  .object [("path", .string path), ("_user", .string "bob"), ("content", .string "x")]

/-- What bob's links lead to. -/
theorem resolve_bobsTree :
    bobsTree.resolve 40 [] "/tmp/in" = some ["home", "bob", "notes"] ∧
    bobsTree.openTarget 40 [] "/home/bob/out" = some ["tmp", "new"] := by
  decide +kernel

theorem inHome_bob : InHome "bob" ["home", "bob", "out"] ∧ InHome "bob" ["home", "bob", "notes"] ∧
    ¬ InHome "bob" ["tmp", "in"] ∧ ¬ InHome "bob" ["tmp", "new"] := by
  unfold InHome
  decide

theorem leads_bob : LeadsOut bobsTree 40 [] "bob" "/home/bob/out" ∧
    LeadsIn bobsTree 40 [] "bob" "/tmp/in" := by
  obtain ⟨hin, hout⟩ := resolve_bobsTree
  obtain ⟨hlink, hnotes, htmp, hnew⟩ := inHome_bob
  exact ⟨⟨_, "/tmp/new", _, by decide, hlink, by decide, hout, by decide, hnew⟩,
    ⟨_, "/home/bob/notes", _, by decide, htmp, by decide, hin, hnotes⟩⟩

theorem limited_confined_bob :
    Confined bobsTree 40 [] "bob" (fileMkdir Text.asciiAlphanumeric (bobsRequest "/tmp/in")) ∧
    ¬ Confined bobsTree 40 [] "bob"
      (fileDelete Text.asciiAlphanumeric (bobsRequest "/tmp/in")) := by
  have h := limited_confined_iff Text.asciiAlphanumeric bobsTree 40 [] (bobsRequest "/tmp/in") rfl
  have hvalid : isValidUsername Text.asciiAlphanumeric "bob" := by decide
  exact ⟨h.2.1, fun hconfined =>
    h.2.2.1 hconfined ⟨by decide, by decide, hvalid⟩ leads_bob.2⟩

/-- A file is made in `/tmp` through the link in the home, and the link in `/tmp` is removed. -/
theorem links_escape :
    ¬ Confined bobsTree 40 [] "bob"
      (fileWrite Text.asciiAlphanumeric (bobsRequest "/home/bob/out")) ∧
    ¬ Confined bobsTree 40 [] "bob"
      (fileDelete Text.asciiAlphanumeric (bobsRequest "/tmp/in")) := by
  have hvalid : isValidUsername Text.asciiAlphanumeric "bob" := by decide
  have hparent : HasParent "/home/bob/out" := ⟨components "/home/bob", by decide, by decide⟩
  constructor
  · exact fun h =>
      (confined_fileWrite_iff rfl).1 h ⟨by decide, by decide, hvalid, hparent⟩ leads_bob.1
  · exact fun h => (confined_fileDelete_iff rfl).1 h ⟨by decide, by decide, hvalid⟩ leads_bob.2

end Tenodera.Agent.Host

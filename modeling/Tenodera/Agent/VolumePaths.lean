import Tenodera.Agent.ContainerEffects
import Tenodera.Agent.HomeConfinement
import Tenodera.Lib.Words

/-!
# Where the volumes of a container lead

The `-v` arguments of `create_container` on a host with a given tree.  `is_safe_volume_path` looks
at what the `host` field of a volume leads to, or at its text when it leads nowhere, and the runtime
mounts what is in front of the first colon: `volumes_clear_iff`.
-/

namespace Tenodera.Agent.Host

open Protocol Effect Path FileTree

/-! ## Denied locations -/

/-- The part of a `-v` argument that the runtime reads as the path on the host. -/
def hostPart (arg : String) : String := String.ofList (arg.toList.takeWhile (· ≠ ':'))

/-- The paths of the deny-list, as locations. -/
def deniedLocations : List Location := deniedVolumePaths.map fun path => (parts path).filter isName

/-- The location is neither above nor below a denied one; below the root is everything. -/
def Clear (loc : Location) : Prop := ∀ d ∈ deniedLocations, ¬ loc <+: d ∧ (d ≠ [] → ¬ d <+: loc)

/-- Not denied, and not below a denied location. -/
def NotDenied (loc : Location) : Prop := loc ≠ [] ∧ ∀ d ∈ deniedLocations, d ≠ [] → ¬ d <+: loc

/-- What the runtime mounts for a volume is clear of the deny-list. -/
def MountsClear (t : Tree) (links : ℕ) (cwd : Location) (v : String × String) : Prop :=
  ∀ loc, t.real links cwd (hostPart (v.1 ++ ":" ++ v.2)) = some loc → Clear loc

/-- What is mounted is not a directory above a denied one; and where the check has not looked at
it, because of a colon or because nothing is there, it is not denied either. -/
def SoundVolume (t : Tree) (links : ℕ) (cwd : Location) (v : String × String) : Prop :=
  ∀ loc, t.real links cwd (hostPart (v.1 ++ ":" ++ v.2)) = some loc →
    (∀ d ∈ deniedLocations, loc <+: d → loc = d) ∧
    (':' ∈ v.1.toList ∨ t.resolve links cwd v.1 = none → NotDenied loc)

section

variable {u : Text.Alphanumeric} {t : Tree} {links : ℕ} {cwd loc d : Location}
  {rt user password : String} {data : Value} {R : ∀ o, Reply o → Prop} {c : Command}
  {v : String × String} {vs : List (String × String)}

/-! ## The check and the tree -/

theorem clear_iff : Clear loc ↔ (∀ d ∈ deniedLocations, loc <+: d → loc = d) ∧ NotDenied loc := by
  have hroot : [] ∈ deniedLocations := by decide
  constructor
  · intro h
    refine ⟨fun d hd hprefix => absurd hprefix (h d hd).1, ?_, fun d hd => (h d hd).2⟩
    rintro rfl
    exact (h [] hroot).1 (List.prefix_refl _)
  · rintro ⟨habove, hne, hbelow⟩ d hd
    refine ⟨fun hprefix => ?_, hbelow d hd⟩
    cases habove d hd hprefix
    exact hbelow loc hd hne (List.prefix_refl _)

/-- A text that ends in no slash stays when slashes are taken off at the end of a longer one. -/
theorem trimSlashes_append {l l' : List Char} (h : trimSlashes l = l) :
    trimSlashes (l ++ '/' :: l') = l ∨ l ++ ['/'] <+: trimSlashes (l ++ '/' :: l') := by
  by_cases hl' : ∀ c ∈ l', c = '/'
  · left
    have hslashes : ∀ c ∈ '/' :: l', decide (c = '/') = true := by
      simpa using hl'
    rw [trimSlashes, List.rdropWhile, List.reverse_append,
      List.dropWhile_append_of_pos fun c hc => hslashes c (List.mem_reverse.1 hc)]
    exact h
  · right
    simp only [not_forall] at hl'
    obtain ⟨c, hc, hslash⟩ := hl'
    obtain ⟨x, y, rfl⟩ := List.append_of_mem hc
    have hkeep : ¬ decide (c = '/') = true := by simpa using hslash
    have hsplit : l ++ '/' :: (x ++ c :: y) = (l ++ '/' :: x) ++ c :: y := by simp
    rw [trimSlashes, hsplit,
      Words.rdropWhile_append_cons (p := fun c => decide (c = '/')) (a := c) hkeep]
    exact ⟨x ++ c :: y.rdropWhile fun c => c = '/', by simp⟩

/-- The texts of the deny-list, but for the root. -/
theorem denied_texts : ∀ path ∈ deniedVolumePaths, (parts path).filter isName ≠ [] →
    path.toList = ((parts path).filter isName).flatMap (fun name => '/' :: name.toList) ∧
      trimSlashes path.toList = path.toList := by
  decide

/-- What is denied is found by the comparison of the texts. -/
theorem notDenied_of_not_isDenied (h : isDenied (render (locationPath loc)) = false) :
    NotDenied loc := by
  simp only [isDenied, List.any_eq_false, Bool.or_eq_true, decide_eq_true_eq, not_or,
    Bool.and_eq_true, not_and] at h
  constructor
  · rintro rfl
    exact (h "/" (by decide)).1 (by decide)
  · rintro d hd hne ⟨rest, rfl⟩
    obtain ⟨path, hpath, rfl⟩ := List.mem_map.1 hd
    obtain ⟨htext, htrim⟩ := denied_texts path hpath hne
    obtain ⟨heq, hprefix⟩ := h path hpath
    rw [toList_render_locationPath (by simp [hne]), List.flatMap_append, ← htext] at heq hprefix
    cases rest with
    | nil => exact heq (by simp)
    | cons name rest =>
      rw [List.flatMap_cons, List.cons_append] at heq hprefix
      rcases trimSlashes_append htrim with hsame | hlonger
      · exact heq (by rw [hsame, htrim])
      · refine hprefix ?_ ?_
        · obtain ⟨x, xs, hx⟩ := List.exists_cons_of_ne_nil hne
          rw [htrim, htext, hx]
          simp
        · rw [htrim, List.isPrefixOf_iff_prefix]
          have hmap := List.IsPrefix.map Char.toLower hlonger
          rwa [List.map_append] at hmap

/-! ## Volumes that are accepted -/

theorem toList_hostPart (host container : String) : (hostPart (host ++ ":" ++ container)).toList =
    host.toList.takeWhile (· ≠ ':') := by
  have hstop (l : List Char) : (l ++ ':' :: container.toList).takeWhile (· ≠ ':') =
      l.takeWhile (· ≠ ':') := by
    induction l with
    | nil => rfl
    | cons c l ih =>
      rw [List.cons_append, List.takeWhile_cons, List.takeWhile_cons, ih]
  rw [hostPart, String.toList_ofList, String.toList_append, String.toList_append,
    List.append_assoc]
  exact hstop host.toList

theorem hostPart_eq (hcolon : ':' ∉ v.1.toList) : hostPart (v.1 ++ ":" ++ v.2) = v.1 := by
  apply String.toList_inj.1
  rw [toList_hostPart]
  exact List.takeWhile_eq_self_iff.2 fun c hc =>
    decide_eq_true fun heq => hcolon (heq ▸ hc)

/-- What the check has found on a host with the tree. -/
theorem notDenied_of_returnsIf {path : String} (hnul : Text.hasNul path = false)
    (h : (isSafeVolumePath path).ReturnsIf (answersOf t links cwd) true)
    (hresolve : t.resolve links cwd path = some loc) : NotDenied loc := by
  unfold isSafeVolumePath at h
  split_ifs at h with hdots
  swap
  · cases h
  have hpath : path ≠ "" := by
    rintro rfl
    exact absurd hdots (by decide)
  obtain ⟨r, hr, h⟩ := (Prog.returnsIf_bind _ _ _).1 h
  have hanswer := (returnsIf_canonicalize hpath hnul).1 hr
  rw [answersOf, hresolve, Option.map_some] at hanswer
  subst hanswer
  refine notDenied_of_not_isDenied ?_
  have hdenied : true = !isDenied (render (locationPath loc)) := h
  simpa using hdenied.symm

theorem returnsIf_volumeArgsOf_iff {flags : List String} :
    (volumeArgsOf vs).ReturnsIf R (.ok flags) ↔
      flags = volumeFlags vs ∧ ∀ v ∈ vs, (isSafeVolumePath v.1).ReturnsIf R true := by
  induction vs generalizing flags with
  | nil =>
    change Except.ok flags = Except.ok [] ↔ _
    simp [volumeFlags]
  | cons v vs ih =>
    have hsplit : volumeFlags (v :: vs) = ["-v", v.1 ++ ":" ++ v.2] ++ volumeFlags vs := rfl
    rw [volumeArgsOf, Prog.returnsIf_bind, List.forall_mem_cons, hsplit]
    constructor
    · rintro ⟨safe, hsafe, h⟩
      split_ifs at h with hdenied
      case neg => cases h
      obtain ⟨_ | rest, hrest, h⟩ := (Prog.returnsIf_bind _ _ _).1 h
      · cases h
      obtain ⟨rfl, hall⟩ := ih.1 hrest
      cases h
      rw [hdenied] at hsafe
      exact ⟨rfl, hsafe, hall⟩
    · rintro ⟨rfl, hsafe, hall⟩
      have hrest : (volumeArgsOf vs).ReturnsIf R (.ok (volumeFlags vs)) := ih.2 ⟨rfl, hall⟩
      exact ⟨true, hsafe, (Prog.returnsIf_bind _ _ _).2 ⟨_, hrest, rfl⟩⟩

theorem not_asks_volumeArgsOf : ¬ (volumeArgsOf vs).Asks (.run c) := by
  induction vs with
  | nil => exact id
  | cons v vs ih =>
    have hsafe : ¬ (isSafeVolumePath v.1).Asks (.run c) := by
      unfold isSafeVolumePath
      split_ifs
      · rw [Prog.asks_bind]
        rintro (h | ⟨_ | resolved, -, h⟩)
        · exact not_asks_canonicalize h
        · exact h
        · exact h
      · exact id
    rw [volumeArgsOf, Prog.asks_bind]
    rintro (h | ⟨safe, -, h⟩)
    · exact hsafe h
    split_ifs at h
    · rcases (Prog.asks_bind _ _ _).1 h with h | ⟨_ | rest, -, h⟩
      · exact ih h
      · exact h
      · exact h
    · exact h

/-- The request for a container is accepted on a host with these replies. -/
theorem asksIf_createContainer_iff :
    (createContainer u rt data user password).AsksIf R (.run c) ↔
      (strField data "image" ≠ "" ∧ isValidImageRef u (qualifyImage (strField data "image")) ∧
        password ≠ "") ∧
      ∃ name ports restart, nameArgs u data = .ok name ∧ portArgs data = .ok ports ∧
        restartArgs data = .ok restart ∧
        (∀ v ∈ volumes data, (isSafeVolumePath v.1).ReturnsIf R true) ∧
        (sudoAsUser user password ([rt, "run", "-d"] ++ name ++ ports ++ envArgs data ++
          volumeFlags (volumes data) ++ restart ++ ["--", qualifyImage (strField data "image")] ++
          commandArgs data)).AsksIf R (.run c) := by
  unfold createContainer withRef
  by_cases himage : strField data "image" = ""
  · simp [himage]
  by_cases hvalid : isValidImageRef u (qualifyImage (strField data "image"))
  swap
  · simp [himage, hvalid]
  by_cases hpw : password = ""
  · rw [if_neg himage, if_neg (not_not.2 hvalid), if_pos hpw]
    exact iff_of_false id fun h => h.1.2.2 hpw
  rw [if_neg himage, if_neg (not_not.2 hvalid), if_neg hpw,
    and_iff_right (⟨himage, hvalid, hpw⟩ : _ ∧ _ ∧ _)]
  cases nameArgs u data with
  | error e => simp
  | ok name =>
  cases portArgs data with
  | error e => simp
  | ok ports =>
  change (volumeArgsOf (volumes data) >>= _).AsksIf R _ ↔ _
  rw [Prog.asksIf_bind, or_iff_right fun h : (volumeArgsOf _).AsksIf _ _ =>
    not_asks_volumeArgsOf h.asks]
  cases restartArgs data with
  | error e =>
    simp only [reduceCtorEq, false_and, and_false, exists_false, iff_false]
    rintro ⟨_ | volumes, -, h⟩ <;> exact h
  | ok restart =>
    constructor
    · rintro ⟨_ | flags, hflags, h⟩
      · cases h
      obtain ⟨rfl, hsafe⟩ := returnsIf_volumeArgsOf_iff.1 hflags
      exact ⟨name, ports, restart, rfl, rfl, rfl, hsafe, h⟩
    · rintro ⟨_, _, _, ⟨⟩, ⟨⟩, ⟨⟩, hsafe, h⟩
      exact ⟨_, returnsIf_volumeArgsOf_iff.2 ⟨rfl, hsafe⟩, h⟩

end

/-- What the runtime mounts for the volumes of an accepted request is clear of the deny-list iff
none of them is above a denied path, and none that the check has not looked at is denied. -/
theorem volumes_clear_iff (u : Text.Alphanumeric) (t : Tree) (links : ℕ) (cwd : Location)
    (rt user password : String) (data : Value) :
    (∀ c, (createContainer u rt data user password).AsksIf (answersOf t links cwd) (.run c) →
      (∃ before after, c.argv = before ++ volumeFlags (volumes data) ++ after) ∧
        ∀ v ∈ volumes data, MountsClear t links cwd v) ↔
    ∀ c, (createContainer u rt data user password).AsksIf (answersOf t links cwd) (.run c) →
      ∀ v ∈ volumes data, SoundVolume t links cwd v := by
  refine forall₂_congr fun c hc => ?_
  obtain ⟨-, name, ports, restart, -, -, -, hsafe, hrun⟩ := asksIf_createContainer_iff.1 hc
  obtain ⟨⟨-, hnul⟩, rfl⟩ := (asksIf_sudoAsUser_iff fun _ => trivial).1 hrun
  rw [and_iff_right]
  swap
  · refine ⟨"sudo" :: "-S" :: "-k" :: ([rt, "run", "-d"] ++ name ++ ports ++ envArgs data),
      restart ++ ["--", qualifyImage (strField data "image")] ++ commandArgs data, ?_⟩
    simp
  refine forall₂_congr fun v hv => forall₂_congr fun loc hloc => ?_
  rw [clear_iff]
  refine and_congr_right fun _ => ⟨fun h _ => h, fun h => ?_⟩
  by_cases hcolon : ':' ∈ v.1.toList
  · exact h (.inl hcolon)
  cases hresolve : t.resolve links cwd v.1 with
  | none => exact h (.inr hresolve)
  | some loc' =>
    rw [hostPart_eq hcolon, real_of_resolve hresolve] at hloc
    cases Option.some.inj hloc
    refine notDenied_of_returnsIf ?_ (hsafe v hv) hresolve
    have hflag : v.1 ++ ":" ++ v.2 ∈ volumeFlags (volumes data) :=
      List.mem_flatMap.2 ⟨v, hv, by simp⟩
    have harg := List.any_eq_false.1 hnul (v.1 ++ ":" ++ v.2) (by simp [hflag])
    rw [Text.hasNul_append, Text.hasNul_append] at harg
    simp only [Bool.or_eq_true, not_or] at harg
    exact Bool.eq_false_iff.2 harg.1.1

/-- A host with a directory `/etc` in which nothing is linked. -/
def plainTree : Tree := .ofList [([], .dir), (["etc"], .dir), (["var"], .dir)] (by decide)

def mountRequest (host : String) : Value :=
  .object [("image", .string "alpine"), ("volumes", .array [.object
    [("host", .string host), ("container", .string "/x")]])]

/-- The text that the check looks at. -/
def checkedText (t : Tree) (links : ℕ) (cwd : Location) (path : String) : String :=
  ((t.resolve links cwd path).map fun loc => render (locationPath loc)).getD path

theorem returnsIf_isSafeVolumePath {t : Tree} {links : ℕ} {cwd : Location} {path : String}
    (hdots : isAbsoluteWithoutDots path) (hne : path ≠ "") (hnul : Text.hasNul path = false)
    (hdenied : isDenied (checkedText t links cwd path) = false) :
    (isSafeVolumePath path).ReturnsIf (answersOf t links cwd) true := by
  rw [isSafeVolumePath, if_neg (not_not.2 hdots), Prog.returnsIf_bind]
  refine ⟨(t.resolve links cwd path).map locationPath,
    (returnsIf_canonicalize hne hnul).2 rfl, ?_⟩
  rw [checkedText] at hdenied
  cases hresolve : t.resolve links cwd path with
  | none =>
    rw [hresolve] at hdenied
    change true = !isDenied path
    rw [show isDenied path = false from hdenied]
    rfl
  | some loc =>
    rw [hresolve] at hdenied
    change true = !isDenied (render (locationPath loc))
    rw [show isDenied (render (locationPath loc)) = false from hdenied]
    rfl

theorem volumes_mountRequest {host : String} (hne : host ≠ "") :
    volumes (mountRequest host) = [(host, "/x")] := by
  have hpairs : pairsField (mountRequest host) "volumes" "host" "container" = [(host, "/x")] := rfl
  rw [volumes, hpairs]
  simp [hne]

theorem noNul_mountRequest {host : String} (hne : host ≠ "") (hnul : Text.hasNul host = false) :
    (["docker", "run", "-d"] ++ [] ++ [] ++ envArgs (mountRequest host) ++
      volumeFlags (volumes (mountRequest host)) ++ [] ++ ["--", qualifyImage "alpine"] ++
      commandArgs (mountRequest host)).any Text.hasNul = false := by
  have hflag : Text.hasNul (host ++ ":" ++ "/x") = false := by
    rw [Text.hasNul_append, Text.hasNul_append, hnul]
    rfl
  have henv : envArgs (mountRequest host) = [] := rfl
  have hcommand : commandArgs (mountRequest host) = [] := rfl
  have himage : Text.hasNul (qualifyImage "alpine") = false := by decide +kernel
  rw [henv, hcommand, volumes_mountRequest hne]
  simp only [volumeFlags, List.flatMap_cons, List.flatMap_nil, List.append_nil, List.any_append,
    List.any_cons, List.any_nil, hflag, himage]
  decide

/-- Whatever passes the check is mounted. -/
theorem asksIf_mountRequest {host : String} (hdots : isAbsoluteWithoutDots host) (hne : host ≠ "")
    (hnul : Text.hasNul host = false)
    (hdenied : isDenied (checkedText plainTree 40 [] host) = false) :
    ∃ c, (createContainer Text.asciiAlphanumeric "docker" (mountRequest host) "bob" "secret").AsksIf
        (answersOf plainTree 40 []) (.run c) := by
  have himage : isValidImageRef Text.asciiAlphanumeric (qualifyImage "alpine") := by
    decide +kernel
  have hfield : strField (mountRequest host) "image" = "alpine" := rfl
  have hsafe : ∀ v ∈ volumes (mountRequest host),
      (isSafeVolumePath v.1).ReturnsIf (answersOf plainTree 40 []) true := by
    rw [volumes_mountRequest hne]
    intro v hv
    rw [List.mem_singleton.1 hv]
    exact returnsIf_isSafeVolumePath hdots hne hnul hdenied
  obtain ⟨c, hc⟩ : ∃ c, (sudoAsUser "bob" "secret" _).AsksIf (answersOf plainTree 40 []) (.run c) :=
    exists_asksIf_sudoAsUser (fun _ => trivial) (by decide) (noNul_mountRequest hne hnul)
  refine ⟨c, ?_⟩
  rw [asksIf_createContainer_iff, hfield]
  exact ⟨⟨by decide, himage, by decide⟩, [], [], [], rfl, rfl, rfl, hsafe, hc⟩

/-- `/etc` is mounted through a colon, and `/var`, with the images and volumes of the runtime. -/
theorem denied_mounted : ["/etc:/foo", "/var"].Forall fun host =>
    (∃ c, (createContainer Text.asciiAlphanumeric "docker" (mountRequest host) "bob"
        "secret").AsksIf (answersOf plainTree 40 []) (.run c)) ∧
      ∃ v ∈ volumes (mountRequest host), ¬ MountsClear plainTree 40 [] v := by
  have hetc : isAbsoluteWithoutDots "/etc:/foo" ∧
      isDenied (checkedText plainTree 40 [] "/etc:/foo") = false := by decide +kernel
  have hvar : isAbsoluteWithoutDots "/var" ∧
      isDenied (checkedText plainTree 40 [] "/var") = false := by decide +kernel
  have hread : plainTree.real 40 [] (hostPart ("/etc:/foo" ++ ":" ++ "/x")) = some ["etc"] ∧
      plainTree.real 40 [] (hostPart ("/var" ++ ":" ++ "/x")) = some ["var"] := by
    decide +kernel
  have hdenied : ["etc"] ∈ deniedLocations ∧ ["var", "lib", "docker"] ∈ deniedLocations := by
    decide +kernel
  have hmem {host : String} (hne : host ≠ "") : (host, "/x") ∈ volumes (mountRequest host) := by
    rw [volumes_mountRequest hne]
    exact List.mem_singleton_self _
  constructor
  · refine ⟨asksIf_mountRequest hetc.1 (by decide) (by decide) hetc.2, ("/etc:/foo", "/x"),
      hmem (by decide), ?_⟩
    intro h
    exact (h ["etc"] hread.1 ["etc"] hdenied.1).1 (List.prefix_refl _)
  · refine ⟨asksIf_mountRequest hvar.1 (by decide) (by decide) hvar.2, ("/var", "/x"),
      hmem (by decide), ?_⟩
    intro h
    exact (h ["var"] hread.2 _ hdenied.2).1 (List.prefix_append ["var"] ["lib", "docker"])

end Tenodera.Agent.Host

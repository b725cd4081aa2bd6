import Tenodera.Agent.Containers

/-!
# What the container handler changes

`quiet_containerDispatch_iff` goes through the actions: an action that only looks is quiet, and one
that writes is quiet exactly when a check refuses it, or when its command cannot be started.
-/

namespace Tenodera.Agent.Host

open Protocol Effect Path

/-! ## Which requests write -/

/-- A command through `sudo` can be tried: there is a password, and the user's name can be looked
up. -/
def Elevated (data : Value) : Prop :=
  strField data "password" ≠ "" ∧ Text.hasNul (strField data "_user") = false

/-- Without a password the agent runs the command itself. -/
def PlainOrElevated (data : Value) : Prop :=
  strField data "password" = "" ∨ Text.hasNul (strField data "_user") = false

/-- Only the objects of the root need `sudo`. -/
def OwnedOrElevated (data : Value) (defaultOwner : String) : Prop :=
  ownerField data defaultOwner = "root" → Elevated data

def optionOk (data : Value) (key : String) (valid : String → Bool) : Bool :=
  strField data key = "" || valid (strField data key)

def NoNul (args : List String) : Prop := args.any Text.hasNul = false

def volumeFlags (volumes : List (String × String)) : List String :=
  volumes.flatMap fun v => ["-v", v.1 ++ ":" ++ v.2]

/-- The request creates a container. -/
def Creates (u : Text.Alphanumeric) (data : Value) : Prop :=
  let image := strField data "image"
  image ≠ "" ∧ isValidImageRef u (qualifyImage image) ∧ Elevated data ∧
    optionOk data "name" (isValidContainerRef u) ∧
    ((ports data).all fun p => isPort p.1 && isPort p.2) ∧
    ((volumes data).all fun v => isAbsoluteWithoutDots v.1) ∧
    optionOk data "restart" isValidRestartPolicy ∧
    NoNul (envArgs data) ∧ NoNul (volumeFlags (volumes data)) ∧ NoNul (commandArgs data)

/-- The request gets as far as a command that changes containers, images, volumes, networks or the
service. -/
def Mutates (u : Text.Alphanumeric) (data : Value) : Prop :=
  let id := strField data "id"
  let name := strField data "name"
  match strField data "action" with
  | "start" | "stop" | "restart" | "remove" =>
    isValidContainerRef u id ∧ OwnedOrElevated data "root"
  | "remove_image" => isValidImageRef u id ∧ OwnedOrElevated data "root"
  | "volume_remove" => isValidContainerRef u name ∧ OwnedOrElevated data "user"
  | "network_remove" => isValidContainerRef u id ∧ OwnedOrElevated data "user"
  | "pull" =>
    strField data "image" ≠ "" ∧ isValidImageRef u (qualifyImage (strField data "image")) ∧
      Elevated data
  | "create" => Creates u data
  | "volume_create" =>
    isValidContainerRef u name ∧ optionOk data "driver" (isValidVolumeDriverName u) ∧
      ((labels data).all fun l => isValidLabelKey u l.1 && !Text.hasNul l.2) ∧ PlainOrElevated data
  | "network_create" =>
    isValidContainerRef u name ∧ optionOk data "driver" isValidNetworkDriver ∧
      optionOk data "subnet" isValidCidr ∧ optionOk data "gateway" isValidIp ∧ PlainOrElevated data
  | "network_connect" | "network_disconnect" =>
    isValidContainerRef u (strField data "network") ∧
      isValidContainerRef u (strField data "container") ∧ PlainOrElevated data
  | "volume_prune" | "network_prune" | "container_prune" | "image_prune" => PlainOrElevated data
  | "system_prune" | "service_start" | "service_stop" | "service_restart" => Elevated data
  | _ => False

/-! ## NULs -/

section

variable {u : Text.Alphanumeric} {rt user password owner ref : String} {data : Value}
  {argv args : List String}

theorem hasNul_of_all {s : String} {p : Char → Bool} (h : s.toList.all p) (hp : p '\x00' = false) :
    Text.hasNul s = false := by
  rw [Text.hasNul, decide_eq_false_iff_not]
  intro hnul
  have hchar := List.all_eq_true.1 h _ hnul
  rw [hp] at hchar
  cases hchar

theorem hasNul_of_isValidContainerRef {id : String} (h : isValidContainerRef u id) :
    Text.hasNul id = false := by
  simp only [isValidContainerRef, Bool.and_eq_true] at h
  exact hasNul_of_all h.2 (by simp [u.mem_nul])

theorem hasNul_of_isValidImageRef {image : String} (h : isValidImageRef u image) :
    Text.hasNul image = false := by
  simp only [isValidImageRef, Bool.and_eq_true] at h
  refine hasNul_of_all h.1.2 ?_
  rw [u.mem_nul]
  rfl

theorem hasNul_of_parseUnsigned {bits : ℕ} {s : String} (h : (Text.parseUnsigned bits s).isSome) :
    Text.hasNul s = false := by
  rw [Text.hasNul, decide_eq_false_iff_not]
  intro hmem
  have hnone : Text.parseUnsigned bits (String.ofList s.toList) = none :=
    Text.parseUnsigned_eq_none hmem (by decide) (by decide)
  rw [String.ofList_toList] at hnone
  rw [hnone] at h
  cases h

theorem hasNul_of_isPort {port : String} (h : isPort port) : Text.hasNul port = false :=
  hasNul_of_parseUnsigned h

theorem hasNul_of_isValidRestartPolicy {policy : String} (h : isValidRestartPolicy policy) :
    Text.hasNul policy = false := by
  simp only [isValidRestartPolicy, Bool.or_eq_true, Bool.and_eq_true, decide_eq_true_eq,
    List.mem_cons, List.not_mem_nil, or_false] at h
  rcases h with (rfl | rfl | rfl | rfl) | ⟨hstart, hparse⟩
  iterate 4 rfl
  have hnul := hasNul_of_parseUnsigned hparse
  obtain ⟨rest, hrest⟩ := List.isPrefixOf_iff_prefix.1 hstart
  have hdrop : List.drop 11 ("on-failure:".toList ++ rest) = rest := rfl
  have hnotMem : '\x00' ∉ "on-failure:".toList := by decide
  rw [Text.hasNul_ofList, ← hrest, hdrop] at hnul
  rw [Text.hasNul, ← hrest]
  simpa [hnotMem] using hnul

theorem hasNul_of_isValidLabelKey {key : String} (h : isValidLabelKey u key) :
    Text.hasNul key = false := by
  simp only [isValidLabelKey, Bool.and_eq_true] at h
  refine hasNul_of_all h.2 ?_
  rw [u.mem_nul]
  rfl

theorem hasNul_of_isValidVolumeDriverName {driver : String} (h : isValidVolumeDriverName u driver) :
    Text.hasNul driver = false := by
  simp only [isValidVolumeDriverName, Bool.and_eq_true] at h
  refine hasNul_of_all h.2 ?_
  rw [u.mem_nul]
  rfl

theorem hasNul_of_isValidNetworkDriver {driver : String} (h : isValidNetworkDriver driver) :
    Text.hasNul driver = false := by
  simp only [isValidNetworkDriver, decide_eq_true_eq, List.mem_cons, List.not_mem_nil, or_false]
    at h
  rcases h with rfl | rfl | rfl | rfl | rfl | rfl | rfl <;> rfl

theorem hasNul_of_isValidCidr {cidr : String} (h : isValidCidr cidr) :
    Text.hasNul cidr = false := by
  simp only [isValidCidr, Bool.and_eq_true] at h
  exact hasNul_of_all h.1.1.2 rfl

theorem hasNul_of_isValidIp {ip : String} (h : isValidIp ip) : Text.hasNul ip = false := by
  simp only [isValidIp, Bool.and_eq_true] at h
  exact hasNul_of_all h.2 (by decide)

/-! ## Commands of a runtime -/

theorem stripSudo_runtime (hrt : rt ∈ runtimes) : stripSudo (rt :: args) = rt :: args := by
  simp only [runtimes, List.mem_cons, List.not_mem_nil, or_false] at hrt
  rcases hrt with rfl | rfl <;> rfl

theorem hasNul_runtime (hrt : rt ∈ runtimes) : Text.hasNul rt = false := by
  simp only [runtimes, List.mem_cons, List.not_mem_nil, or_false] at hrt
  rcases hrt with rfl | rfl <;> rfl

theorem observes_runtime (hrt : rt ∈ runtimes) :
    observes (rt :: args) = observingRuntime.any (·.isPrefixOf args) := by
  simp only [runtimes, List.mem_cons, List.not_mem_nil, or_false] at hrt
  rcases hrt with rfl | rfl <;>
    simp [observes, observing, observingTools, observingAlone, searchDirs]

theorem quiet_runCmdResult_iff : Quiet (runCmdResult argv) ↔
    argv.any Text.hasNul ∨ observes (stripSudo argv) := by
  rw [runCmdResult, quiet_bind_iff, quiet_run_iff, and_iff_left]
  rintro (_ | out) _
  · exact quiet_pure _
  · exact Prog.Only.ite (fun _ => quiet_pure _) fun _ => quiet_pure _

theorem quiet_withRef_iff {missing invalid : String} {valid : String → Bool} {act : HostM Value} :
    Quiet (withRef ref missing invalid valid act) ↔ (ref ≠ "" → valid ref → Quiet act) := by
  unfold withRef
  split_ifs with hempty hvalid
  · simp [hempty]
  · simp [hempty, hvalid]
  · simp [hempty, hvalid]

theorem quiet_sudoWrite_iff (hobs : observes argv = false) :
    Quiet (sudoWrite user password argv) ↔
      ¬ (password ≠ "" ∧ Text.hasNul user = false ∧ NoNul argv) := by
  unfold sudoWrite
  split_ifs with hpw
  · simp [hpw]
  · rw [quiet_sudoAsUser_iff, hobs, NoNul]
    cases Text.hasNul user <;> cases argv.any Text.hasNul <;> simp [hpw]

theorem quiet_plainWrite_iff (hobs : observes argv = false) (hstrip : stripSudo argv = argv) :
    Quiet (plainWrite user password argv) ↔
      ¬ ((password = "" ∨ Text.hasNul user = false) ∧ NoNul argv) := by
  unfold plainWrite
  split_ifs with hpw
  · rw [quiet_runCmdResult_iff, hstrip, hobs, NoNul]
    cases argv.any Text.hasNul <;> simp [hpw]
  · rw [quiet_sudoAsUser_iff, hobs, NoNul]
    cases Text.hasNul user <;> cases argv.any Text.hasNul <;> simp [hpw]

theorem quiet_plainRuntime_iff (user password : String) (args : List String) (hrt : rt ∈ runtimes)
    (hobs : observingRuntime.any (·.isPrefixOf args) = false) :
    Quiet (plainWrite user password (rt :: args)) ↔
      ¬ ((password = "" ∨ Text.hasNul user = false) ∧ NoNul args) := by
  have hnul : NoNul (rt :: args) ↔ NoNul args := by
    rw [NoNul, NoNul, List.any_cons, hasNul_runtime hrt, Bool.false_or]
  rw [quiet_plainWrite_iff ((observes_runtime hrt).trans hobs) (stripSudo_runtime hrt), hnul]

theorem quiet_sudoRuntime_iff (user password : String) (args : List String) (hrt : rt ∈ runtimes)
    (hobs : observingRuntime.any (·.isPrefixOf args) = false) :
    Quiet (sudoWrite user password (rt :: args)) ↔
      ¬ (password ≠ "" ∧ Text.hasNul user = false ∧ NoNul args) := by
  have hnul : NoNul (rt :: args) ↔ NoNul args := by
    rw [NoNul, NoNul, List.any_cons, hasNul_runtime hrt, Bool.false_or]
  rw [quiet_sudoWrite_iff ((observes_runtime hrt).trans hobs), hnul]

theorem quiet_ownedWrite_iff {needed : String} (hobs : observes argv = false)
    (hstrip : stripSudo argv = argv) (hnul : NoNul argv) :
    Quiet (ownedWrite owner user password needed argv) ↔
      ¬ (owner = "root" → password ≠ "" ∧ Text.hasNul user = false) := by
  unfold ownedWrite
  rw [NoNul] at hnul
  split_ifs with howner hpw
  · simp [howner, hpw]
  · rw [quiet_sudoAsUser_iff, hobs, hnul]
    cases Text.hasNul user <;> simp [howner, hpw]
  · rw [quiet_runCmdResult_iff, hstrip, hobs, hnul]
    simp [howner]

/-! ## Arguments that the request gives -/

theorem noNul_nil : NoNul [] := rfl

theorem noNul_append_iff {args' : List String} :
    NoNul (args ++ args') ↔ NoNul args ∧ NoNul args' := by
  rw [NoNul, NoNul, NoNul, List.any_append, Bool.or_eq_false_iff]

theorem noNul_cons_iff {arg : String} :
    NoNul (arg :: args) ↔ Text.hasNul arg = false ∧ NoNul args := by
  rw [NoNul, NoNul, List.any_cons, Bool.or_eq_false_iff]

/-- The check passes and gives arguments without NULs, or it fails with an error. -/
def Checked (ok : Prop) (r : Except String (List String)) : Prop :=
  (ok ∧ ∃ args, r = .ok args ∧ NoNul args) ∨ (¬ ok ∧ ∃ e, r = .error e)

theorem checked_optionArg {key flag invalid : String} {valid : String → Bool}
    (hflag : Text.hasNul flag = false) (hvalid : ∀ s, valid s → Text.hasNul s = false) :
    Checked (optionOk data key valid) (optionArg data key flag valid invalid) := by
  unfold optionOk optionArg
  by_cases hempty : strField data key = ""
  · exact Or.inl ⟨by simp [hempty], [], by simp [hempty], noNul_nil⟩
  by_cases hok : valid (strField data key)
  · refine Or.inl ⟨by simp [hok], [flag, strField data key], by simp [hempty, hok], ?_⟩
    exact noNul_cons_iff.2 ⟨hflag, noNul_cons_iff.2 ⟨hvalid _ hok, noNul_nil⟩⟩
  · exact Or.inr ⟨by simp [hempty, hok], invalid, by simp [hempty, hok]⟩

theorem checked_nameArgs (u : Text.Alphanumeric) (data : Value) :
    Checked (optionOk data "name" (isValidContainerRef u)) (nameArgs u data) :=
  checked_optionArg rfl fun _ => hasNul_of_isValidContainerRef

theorem checked_restartArgs (data : Value) :
    Checked (optionOk data "restart" isValidRestartPolicy) (restartArgs data) :=
  checked_optionArg rfl fun _ => hasNul_of_isValidRestartPolicy

theorem checked_portArgs (data : Value) :
    Checked ((ports data).all fun p => isPort p.1 && isPort p.2) (portArgs data) := by
  unfold portArgs
  cases hfind : (ports data).find? fun p => !isPort p.1 || !isPort p.2 with
  | some p =>
    refine Or.inr ⟨fun hall => ?_, _, rfl⟩
    have hok := List.all_eq_true.1 hall p (List.mem_of_find?_eq_some hfind)
    have hbad := List.find?_some hfind
    rw [← Bool.not_and, hok] at hbad
    cases hbad
  | none =>
    have hok : ∀ p ∈ ports data, isPort p.1 ∧ isPort p.2 := fun p hp => by
      simpa using List.find?_eq_none.1 hfind p hp
    refine Or.inl ⟨List.all_eq_true.2 fun p hp => by simpa using hok p hp, _, rfl, ?_⟩
    rw [NoNul, List.any_eq_false]
    intro arg harg
    obtain ⟨p, hp, harg⟩ := List.mem_flatMap.1 harg
    obtain ⟨hhost, hcontainer⟩ := hok p hp
    rcases List.mem_cons.1 harg with rfl | harg
    · decide
    · rw [List.mem_singleton.1 harg, Text.hasNul_append, Text.hasNul_append,
        hasNul_of_isPort hhost, hasNul_of_isPort hcontainer]
      decide

theorem labelArgs_cases (u : Text.Alphanumeric) (data : Value) :
    (((labels data).all fun l => isValidLabelKey u l.1) ∧ ∃ args, labelArgs u data = .ok args ∧
      (NoNul args ↔ (labels data).all fun l => !Text.hasNul l.2)) ∨
    (¬ ((labels data).all fun l => isValidLabelKey u l.1) ∧
      ∃ e, labelArgs u data = .error e) := by
  unfold labelArgs
  cases hfind : (labels data).find? fun l => !isValidLabelKey u l.1 with
  | some l =>
    refine Or.inr ⟨fun hall => ?_, _, rfl⟩
    have hok := List.all_eq_true.1 hall l (List.mem_of_find?_eq_some hfind)
    have hbad := List.find?_some hfind
    rw [hok] at hbad
    cases hbad
  | none =>
    have hok : ∀ l ∈ labels data, isValidLabelKey u l.1 := fun l hl => by
      simpa using List.find?_eq_none.1 hfind l hl
    refine Or.inl ⟨List.all_eq_true.2 hok, _, rfl, ?_⟩
    have harg {l : String × String} (hl : l ∈ labels data) :
        ["--label", l.1 ++ "=" ++ l.2].any Text.hasNul = Text.hasNul l.2 := by
      have hflag : Text.hasNul "--label" = false := rfl
      have heq : Text.hasNul "=" = false := rfl
      simp [hflag, heq, hasNul_of_isValidLabelKey (hok l hl)]
    rw [NoNul, List.any_flatMap, List.any_eq_false, List.all_eq_true]
    refine forall₂_congr fun l hl => ?_
    rw [harg hl, Bool.not_eq_true, Bool.not_eq_true']

/-! ## Creating a container -/

theorem quiet_isSafeVolumePath (path : String) : Quiet (isSafeVolumePath path) := by
  refine Prog.Only.ite (fun _ => quiet_pure _) fun _ => (quiet_canonicalize path).bind ?_
  rintro (_ | _) <;> exact quiet_pure _

/-- Some host has an innocent directory there. -/
theorem returns_isSafeVolumePath {path : String} (h : isAbsoluteWithoutDots path)
    (hnul : Text.hasNul path = false) : (isSafeVolumePath path).Returns true := by
  have hempty : path ≠ "" := by
    simp only [isAbsoluteWithoutDots, Bool.and_eq_true, decide_eq_true_eq] at h
    exact h.1.1
  rw [isSafeVolumePath, if_neg (not_not.2 h)]
  refine (Prog.returns_bind _ _ _).2 ⟨some [.rootDir, .normal "data"],
    returns_canonicalize_iff.2 fun hnone => ?_, ?_⟩
  · simp [hempty, hnul] at hnone
  · change true = !isDenied (render [.rootDir, .normal "data"])
    decide

theorem quiet_volumeArgsOf (vs : List (String × String)) : Quiet (volumeArgsOf vs) := by
  induction vs with
  | nil => exact quiet_pure _
  | cons v vs ih =>
    refine (quiet_isSafeVolumePath v.1).bind fun safe => ?_
    refine Prog.Only.ite (fun _ => quiet_pure _) fun _ => ih.bind ?_
    rintro (_ | _) <;> exact quiet_pure _

theorem eq_of_returns_volumeArgsOf {vs : List (String × String)} {flags : List String}
    (h : (volumeArgsOf vs).Returns (.ok flags)) :
    flags = volumeFlags vs ∧ vs.all fun v => isAbsoluteWithoutDots v.1 := by
  induction vs generalizing flags with
  | nil =>
    cases h
    exact ⟨rfl, rfl⟩
  | cons v vs ih =>
    obtain ⟨safe, hsafe, h⟩ := (Prog.returns_bind _ _ _).1 h
    split_ifs at h with hdenied
    case neg => cases h
    obtain ⟨r, hr, h⟩ := (Prog.returns_bind _ _ _).1 h
    cases r with
    | error e => cases h
    | ok rest =>
      cases h
      obtain ⟨rfl, hall⟩ := ih hr
      refine ⟨rfl, ?_⟩
      rw [List.all_cons, hall, Bool.and_true]
      by_contra hdots
      rw [isSafeVolumePath, if_pos hdots] at hsafe
      exact absurd hsafe (by simp [hdenied])

theorem returns_volumeArgsOf {vs : List (String × String)}
    (hall : vs.all fun v => isAbsoluteWithoutDots v.1) (hnul : NoNul (volumeFlags vs)) :
    (volumeArgsOf vs).Returns (.ok (volumeFlags vs)) := by
  induction vs with
  | nil => rfl
  | cons v vs ih =>
    rw [List.all_cons, Bool.and_eq_true] at hall
    have hsplit : volumeFlags (v :: vs) = ["-v", v.1 ++ ":" ++ v.2] ++ volumeFlags vs := rfl
    rw [hsplit, noNul_append_iff] at hnul
    have hhost : Text.hasNul v.1 = false := by
      have := hnul.1
      simp only [NoNul, List.any_cons, Text.hasNul_append, Bool.or_eq_false_iff] at this
      exact this.2.1.1.1
    refine (Prog.returns_bind _ _ _).2 ⟨true, returns_isSafeVolumePath hall.1 hhost, ?_⟩
    exact (Prog.returns_bind _ _ _).2 ⟨.ok (volumeFlags vs), ih hall.2 hnul.2, rfl⟩

/-- `run` of a runtime starts a container, for some host, unless an argument has a NUL. -/
theorem quiet_runContainer_iff (user password : String) (env flags command : List String)
    {names ports restart : List String} {image : String} (hrt : rt ∈ runtimes)
    (hnames : NoNul names) (hports : NoNul ports) (hrestart : NoNul restart)
    (himage : Text.hasNul image = false) :
    Quiet (sudoAsUser user password ([rt, "run", "-d"] ++ names ++ ports ++ env ++ flags ++
      restart ++ ["--", image] ++ command)) ↔
    ¬ (Text.hasNul user = false ∧ NoNul env ∧ NoNul flags ∧ NoNul command) := by
  have hobs : observes ([rt, "run", "-d"] ++ names ++ ports ++ env ++ flags ++ restart ++
      ["--", image] ++ command) = false := by
    simp only [List.cons_append, observes_runtime hrt]
    rfl
  have hhead : NoNul [rt, "run", "-d"] := noNul_cons_iff.2 ⟨hasNul_runtime hrt, rfl⟩
  have himage : NoNul ["--", image] := noNul_cons_iff.2 ⟨rfl, noNul_cons_iff.2 ⟨himage, rfl⟩⟩
  have hnul : ([rt, "run", "-d"] ++ names ++ ports ++ env ++ flags ++ restart ++ ["--", image] ++
      command).any Text.hasNul = false ↔ NoNul env ∧ NoNul flags ∧ NoNul command := by
    rw [← NoNul]
    simp only [noNul_append_iff, hhead, hnames, hports, hrestart, himage, true_and, and_true,
      and_assoc]
  rw [quiet_sudoAsUser_iff, hobs, ← hnul, not_and_or, Bool.not_eq_false, Bool.not_eq_false]
  simp

theorem quiet_createContainer_iff (hrt : rt ∈ runtimes) :
    Quiet (createContainer u rt data (strField data "_user") (strField data "password")) ↔
      ¬ Creates u data := by
  rw [createContainer, quiet_withRef_iff, Creates]
  by_cases himage : strField data "image" = ""
  · simp [himage]
  by_cases hvalid : isValidImageRef u (qualifyImage (strField data "image"))
  swap
  · simp [hvalid]
  by_cases hpw : strField data "password" = ""
  · simp [Elevated, hpw]
  rcases checked_nameArgs u data with ⟨hname, names, hnames, hnoNames⟩ | ⟨hname, e, he⟩
  swap
  · simp [he, hname, hpw, himage, hvalid]
  rcases checked_portArgs data with ⟨hport, flags, hflags, hnoPorts⟩ | ⟨hport, e, he⟩
  swap
  · simp [he, hnames, hport, hpw, himage, hvalid]
  simp only [himage, hvalid, hpw, hnames, hflags, hname, hport, Elevated, ne_eq, not_false_eq_true,
    true_and, forall_const, if_false]
  rw [(quiet_volumeArgsOf _).bind_iff]
  rcases checked_restartArgs data with ⟨hrestart, restart, hargs, hnoRestart⟩ | ⟨hrestart, e, he⟩
  swap
  · refine iff_of_true ?_ (by simp [hrestart])
    rintro (_ | _) -
    · exact quiet_pure _
    · rw [he]
      exact quiet_pure _
  have hrun (volumes : List String) :=
    quiet_runContainer_iff (strField data "_user") (strField data "password") (envArgs data) volumes
      (commandArgs data) hrt hnoNames hnoPorts hnoRestart (hasNul_of_isValidImageRef hvalid)
  simp only [hargs, hrestart, true_and]
  constructor
  · rintro h ⟨huser, hall, henv, hvolumes, hcommand⟩
    exact (hrun _).1 (h _ (returns_volumeArgsOf hall hvolumes)) ⟨huser, henv, hvolumes, hcommand⟩
  · rintro h (_ | volumes) hr
    · exact quiet_pure _
    · obtain ⟨rfl, hall⟩ := eq_of_returns_volumeArgsOf hr
      refine (hrun _).2 fun ⟨huser, henv, hvolumes, hcommand⟩ => ?_
      exact h ⟨huser, hall, henv, hvolumes, hcommand⟩

/-! ## The other actions -/

theorem ne_empty_of_isValidContainerRef {id : String} (h : isValidContainerRef u id) : id ≠ "" := by
  simp only [isValidContainerRef, Bool.and_eq_true, decide_eq_true_eq] at h
  exact h.1.1.1

theorem ne_empty_of_isValidImageRef {image : String} (h : isValidImageRef u image) :
    image ≠ "" := by
  simp only [isValidImageRef, Bool.and_eq_true, decide_eq_true_eq] at h
  exact h.1.1.1.1

/-- The options of a volume: beyond the checks, only the values of its labels can have a NUL. -/
theorem volumeOptions_cases (u : Text.Alphanumeric) (data : Value) :
    (optionOk data "driver" (isValidVolumeDriverName u) ∧
      ((labels data).all fun l => isValidLabelKey u l.1) ∧
      ∃ args, volumeOptions u data = .ok args ∧
        (NoNul args ↔ (labels data).all fun l => !Text.hasNul l.2)) ∨
    (¬ (optionOk data "driver" (isValidVolumeDriverName u) ∧
      ((labels data).all fun l => isValidLabelKey u l.1)) ∧
      ∃ e, volumeOptions u data = .error e) := by
  have hdriver : Checked (optionOk data "driver" (isValidVolumeDriverName u)) (optionArg data
      "driver" "--driver" (isValidVolumeDriverName u) "invalid volume driver name") :=
    checked_optionArg rfl fun _ => hasNul_of_isValidVolumeDriverName
  unfold volumeOptions
  rcases hdriver with ⟨hdriver, driver, hargs, hno⟩ | ⟨hdriver, e, he⟩
  swap
  · exact Or.inr ⟨fun h => hdriver h.1, e, by rw [he]; rfl⟩
  rcases labelArgs_cases u data with ⟨hkeys, args, hlabels, hnul⟩ | ⟨hkeys, e, he⟩
  swap
  · exact Or.inr ⟨fun h => hkeys h.2, e, by rw [hargs, he]; rfl⟩
  refine Or.inl ⟨hdriver, hkeys, driver ++ args, by rw [hargs, hlabels]; rfl, ?_⟩
  rw [noNul_append_iff, and_iff_right hno, hnul]

theorem quiet_volumeCreate_iff (hrt : rt ∈ runtimes) :
    Quiet (volumeCreate u rt data (strField data "_user") (strField data "password")) ↔
      ¬ (isValidContainerRef u (strField data "name") ∧
        optionOk data "driver" (isValidVolumeDriverName u) ∧
        ((labels data).all fun l => isValidLabelKey u l.1 && !Text.hasNul l.2) ∧
        PlainOrElevated data) := by
  have hlabels : ((labels data).all fun l => isValidLabelKey u l.1 && !Text.hasNul l.2) ↔
      ((labels data).all fun l => isValidLabelKey u l.1) ∧
        (labels data).all fun l => !Text.hasNul l.2 := by
    simp only [List.all_eq_true, Bool.and_eq_true, ← forall₂_and]
  rw [volumeCreate, quiet_withRef_iff]
  by_cases hvalid : isValidContainerRef u (strField data "name")
  swap
  · simp [hvalid]
  rcases volumeOptions_cases u data with ⟨hdriver, hkeys, args, hargs, hnul⟩ | ⟨hbad, e, he⟩
  · have hname := hasNul_of_isValidContainerRef hvalid
    have hrest : NoNul ["--name", strField data "name"] :=
      noNul_cons_iff.2 ⟨rfl, noNul_cons_iff.2 ⟨hname, rfl⟩⟩
    have hargv : NoNul (["volume", "create"] ++ args ++ ["--name", strField data "name"]) ↔
        (labels data).all fun l => !Text.hasNul l.2 := by
      have hhead : NoNul ["volume", "create"] := rfl
      rw [noNul_append_iff, noNul_append_iff, and_iff_left hrest, and_iff_right hhead, hnul]
    have hwrite := (quiet_plainRuntime_iff (strField data "_user") (strField data "password")
      (["volume", "create"] ++ args ++ ["--name", strField data "name"]) hrt rfl).trans
      (not_congr (and_congr_right' hargv))
    rw [hargs, hlabels]
    refine (imp_iff_right (ne_empty_of_isValidContainerRef hvalid)).trans
      ((imp_iff_right hvalid).trans (hwrite.trans ?_))
    simp [hvalid, hdriver, hkeys, PlainOrElevated, and_comm]
  · rw [he, hlabels]
    refine iff_of_true (fun _ _ => quiet_pure _) ?_
    rintro ⟨-, hdriver, ⟨hkeys, -⟩, -⟩
    exact hbad ⟨hdriver, hkeys⟩

theorem checked_networkOptions (data : Value) :
    Checked (optionOk data "driver" isValidNetworkDriver ∧ optionOk data "subnet" isValidCidr ∧
      optionOk data "gateway" isValidIp) (networkOptions data) := by
  have hflag (key flag : String) (h : Text.hasNul flag = false) :
      NoNul (flagArg data key flag) := by
    unfold flagArg
    split_ifs
    · exact noNul_cons_iff.2 ⟨h, rfl⟩
    · exact noNul_nil
  have hdriver : Checked (optionOk data "driver" isValidNetworkDriver) (optionArg data "driver"
      "--driver" isValidNetworkDriver "invalid network driver") :=
    checked_optionArg rfl fun _ => hasNul_of_isValidNetworkDriver
  have hsubnet : Checked (optionOk data "subnet" isValidCidr) (optionArg data "subnet"
      "--subnet" isValidCidr "invalid subnet — use CIDR, e.g. 192.168.1.0/24") :=
    checked_optionArg rfl fun _ => hasNul_of_isValidCidr
  have hgateway : Checked (optionOk data "gateway" isValidIp) (optionArg data "gateway"
      "--gateway" isValidIp "invalid gateway IP address") :=
    checked_optionArg rfl fun _ => hasNul_of_isValidIp
  unfold networkOptions
  rcases hdriver with ⟨hdriver, driver, hdriverArgs, hno₁⟩ | ⟨hdriver, e, he⟩
  swap
  · exact Or.inr ⟨fun h => hdriver h.1, e, by rw [he]; rfl⟩
  rcases hsubnet with ⟨hsubnet, subnet, hsubnetArgs, hno₂⟩ | ⟨hsubnet, e, he⟩
  swap
  · exact Or.inr ⟨fun h => hsubnet h.2.1, e, by rw [hdriverArgs, he]; rfl⟩
  rcases hgateway with ⟨hgateway, gateway, hgatewayArgs, hno₃⟩ | ⟨hgateway, e, he⟩
  swap
  · exact Or.inr ⟨fun h => hgateway h.2.2, e, by rw [hdriverArgs, hsubnetArgs, he]; rfl⟩
  refine Or.inl ⟨⟨hdriver, hsubnet, hgateway⟩, _,
    by rw [hdriverArgs, hsubnetArgs, hgatewayArgs]; rfl, ?_⟩
  simp only [noNul_append_iff, hno₁, hno₂, hno₃, hflag _ "--internal" rfl, hflag _ "--ipv6" rfl,
    and_self]

theorem quiet_networkCreate_iff (hrt : rt ∈ runtimes) :
    Quiet (networkCreate u rt data (strField data "_user") (strField data "password")) ↔
      ¬ (isValidContainerRef u (strField data "name") ∧
        optionOk data "driver" isValidNetworkDriver ∧ optionOk data "subnet" isValidCidr ∧
        optionOk data "gateway" isValidIp ∧ PlainOrElevated data) := by
  rw [networkCreate, quiet_withRef_iff]
  by_cases hvalid : isValidContainerRef u (strField data "name")
  swap
  · simp [hvalid]
  rcases checked_networkOptions data with ⟨hok, args, hargs, hno⟩ | ⟨hbad, e, he⟩
  · have hname : NoNul [strField data "name"] :=
      noNul_cons_iff.2 ⟨hasNul_of_isValidContainerRef hvalid, rfl⟩
    have hargv : NoNul (["network", "create"] ++ args ++ [strField data "name"]) :=
      noNul_append_iff.2 ⟨noNul_append_iff.2 ⟨rfl, hno⟩, hname⟩
    have hwrite := (quiet_plainRuntime_iff (strField data "_user") (strField data "password")
      (["network", "create"] ++ args ++ [strField data "name"]) hrt rfl).trans
      (not_congr (and_iff_left hargv))
    rw [hargs]
    refine (imp_iff_right (ne_empty_of_isValidContainerRef hvalid)).trans
      ((imp_iff_right hvalid).trans (hwrite.trans ?_))
    simp [hvalid, hok, PlainOrElevated]
  · rw [he]
    refine iff_of_true (fun _ _ => quiet_pure _) ?_
    rintro ⟨-, hdriver, hsubnet, hgateway, -⟩
    exact hbad ⟨hdriver, hsubnet, hgateway⟩

theorem quiet_networkMember_iff {verb network container : String} (hrt : rt ∈ runtimes)
    (hverb : verb ∈ ["connect", "disconnect"]) :
    Quiet (networkMember u rt verb network container user password) ↔
      ¬ (isValidContainerRef u network ∧ isValidContainerRef u container ∧
        (password = "" ∨ Text.hasNul user = false)) := by
  unfold networkMember
  by_cases hnetwork : isValidContainerRef u network
  swap
  · simp [hnetwork]
  by_cases hcontainer : isValidContainerRef u container
  swap
  · simp [hnetwork, hcontainer]
  have hobs : observingRuntime.any (·.isPrefixOf ["network", verb, "--", network, container]) =
      false := by
    rcases List.mem_pair.1 hverb with rfl | rfl <;> rfl
  have hno : NoNul ["network", verb, "--", network, container] := by
    have hverb : Text.hasNul verb = false := by
      rcases List.mem_pair.1 hverb with rfl | rfl <;> rfl
    simp only [noNul_cons_iff]
    exact ⟨rfl, hverb, rfl, hasNul_of_isValidContainerRef hnetwork,
      hasNul_of_isValidContainerRef hcontainer, rfl⟩
  rw [if_neg (not_not.2 hnetwork), if_neg (not_not.2 hcontainer),
    quiet_plainRuntime_iff user password _ hrt hobs, and_iff_left hno]
  simp [hnetwork, hcontainer]

theorem quiet_ownedRuntime_iff {missing invalid needed default : String} {valid : String → Bool}
    (hrt : rt ∈ runtimes) (hobs : observingRuntime.any (·.isPrefixOf args) = false)
    (hvalid : valid ref → ref ≠ "" ∧ NoNul args) :
    Quiet (withRef ref missing invalid valid (ownedWrite (ownerField data default)
      (strField data "_user") (strField data "password") needed (rt :: args))) ↔
    ¬ (valid ref ∧ OwnedOrElevated data default) := by
  rw [quiet_withRef_iff]
  by_cases hok : valid ref
  swap
  · simp [hok]
  obtain ⟨hne, hno⟩ := hvalid hok
  rw [imp_iff_right hne, imp_iff_right hok, quiet_ownedWrite_iff ((observes_runtime hrt).trans hobs)
    (stripSudo_runtime hrt) (noNul_cons_iff.2 ⟨hasNul_runtime hrt, hno⟩), and_iff_right hok,
    OwnedOrElevated, Elevated]

theorem noNul_owned {head : List String} {ref : String} {force : Bool} (hhead : NoNul head)
    (href : Text.hasNul ref = false) : NoNul (head ++ forceFlag force ++ ["--", ref]) := by
  have hforce : NoNul (forceFlag force) := by
    cases force <;> rfl
  exact noNul_append_iff.2 ⟨noNul_append_iff.2 ⟨hhead, hforce⟩,
    noNul_cons_iff.2 ⟨rfl, noNul_cons_iff.2 ⟨href, rfl⟩⟩⟩

/-! ## Reading -/

theorem quiet_runSudo (hrt : rt ∈ runtimes) (h : observingRuntime.any (·.isPrefixOf args)) :
    Quiet (runSudo password (rt :: args)) := by
  have hstrip : stripSudo ("sudo" :: "-S" :: rt :: args) = rt :: args := by
    simp only [runtimes, List.mem_cons, List.not_mem_nil, or_false] at hrt
    rcases hrt with rfl | rfl <;> rfl
  refine Quiet.bind (quiet_run_iff.2 (Or.inr ?_)) fun _ => quiet_pure _
  rw [hstrip, observes_runtime hrt, h]

theorem quiet_runtimeAsUser (hrt : rt ∈ runtimes) (h : observingRuntime.any (·.isPrefixOf args)) :
    Quiet (runCmdAsUser user (rt :: args)) := by
  refine quiet_runCmdAsUser ?_
  rw [stripSudo_runtime hrt, observes_runtime hrt, h]

theorem quiet_readRuntime {elevated : Bool} (hrt : rt ∈ runtimes)
    (h : observingRuntime.any (·.isPrefixOf args)) :
    Quiet (readRuntime elevated user password (rt :: args)) := by
  cases elevated
  · exact (quiet_runtimeAsUser hrt h).bind fun _ => (quiet_perform _).2 rfl
  · exact (quiet_runSudo hrt h).bind fun _ => (quiet_perform _).2 rfl

theorem quiet_listMerged (hrt : rt ∈ runtimes) (h : observingRuntime.any (·.isPrefixOf args)) :
    Quiet (listMerged user password (rt :: args)) := by
  refine (quiet_runtimeAsUser hrt h).bind fun _ => ?_
  refine Prog.Only.ite (fun _ => ?_) fun _ => (quiet_perform _).2 rfl
  exact (quiet_runSudo hrt h).bind fun _ => (quiet_perform _).2 rfl

theorem quiet_inspect {missing invalid : String} {valid : String → Bool} (hrt : rt ∈ runtimes)
    (h : observingRuntime.any (·.isPrefixOf args)) :
    Quiet (withRef ref missing invalid valid (inspect owner user password (rt :: args))) :=
  quiet_withRef_iff.2 fun _ _ => quiet_readRuntime hrt h

theorem quiet_serviceStatus (rt : String) : Quiet (serviceStatus rt) := by
  refine Quiet.bind (quiet_run_iff.2 (Or.inr rfl)) fun _ => ?_
  exact Quiet.bind (quiet_run_iff.2 (Or.inr rfl)) fun _ => (quiet_perform _).2 rfl

theorem quiet_serviceActionSudo_iff {action : String}
    (haction : action ∈ ["start", "stop", "restart"]) :
    Quiet (serviceActionSudo rt action user password) ↔
      ¬ (password ≠ "" ∧ Text.hasNul user = false) := by
  have hobs : observes ["systemctl", action, serviceName rt] = false := by
    simp only [List.mem_cons, List.not_mem_nil, or_false] at haction
    rcases haction with rfl | rfl | rfl <;> rfl
  have hno : NoNul ["systemctl", action, serviceName rt] := by
    have hservice : Text.hasNul (serviceName rt) = false := by
      unfold serviceName
      split_ifs <;> rfl
    have haction : Text.hasNul action = false := by
      simp only [List.mem_cons, List.not_mem_nil, or_false] at haction
      rcases haction with rfl | rfl | rfl <;> rfl
    simp only [noNul_cons_iff]
    exact ⟨rfl, haction, hservice, rfl⟩
  rw [serviceActionSudo, quiet_sudoWrite_iff hobs, and_iff_left hno]

theorem quiet_pullImage_iff (hrt : rt ∈ runtimes) :
    Quiet (pullImage u rt (strField data "image") (strField data "_user")
      (strField data "password")) ↔
    ¬ (strField data "image" ≠ "" ∧ isValidImageRef u (qualifyImage (strField data "image")) ∧
      Elevated data) := by
  rw [pullImage, quiet_withRef_iff]
  by_cases hvalid : isValidImageRef u (qualifyImage (strField data "image"))
  swap
  · simp [hvalid]
  by_cases hpw : strField data "password" = ""
  · simp [Elevated, hpw]
  have hno : [rt, "pull", "--", qualifyImage (strField data "image")].any Text.hasNul = false := by
    rw [← NoNul]
    simp only [noNul_cons_iff]
    exact ⟨hasNul_runtime hrt, rfl, rfl, hasNul_of_isValidImageRef hvalid, rfl⟩
  have hobs : observes [rt, "pull", "--", qualifyImage (strField data "image")] = false :=
    (observes_runtime hrt).trans rfl
  have hrest (res : Value) : Quiet (perform .verdict >>= fun timedOut =>
      if timedOut then pure (.object [("ok", .bool false),
        ("error", .string "pull timed out after 5 minutes"), ("action", .string "pull")])
      else pure res) :=
    Quiet.bind ((quiet_perform _).2 rfl) fun _ =>
      Prog.Only.ite (fun _ => quiet_pure _) fun _ => quiet_pure _
  rw [if_neg hpw, quiet_bind_iff, and_iff_left fun res _ => hrest res, quiet_sudoAsUser_iff, hno,
    hobs]
  simp [hvalid, Elevated, hpw]

/-! ## The actions together -/

theorem container_ok {ref : String} (head : List String) (hhead : NoNul head)
    (h : isValidContainerRef u ref) : ref ≠ "" ∧ NoNul (head ++ [ref]) :=
  ⟨ne_empty_of_isValidContainerRef h,
    noNul_append_iff.2 ⟨hhead, noNul_cons_iff.2 ⟨hasNul_of_isValidContainerRef h, rfl⟩⟩⟩

theorem quiet_containerAction_iff {action id : String} (hrt : rt ∈ runtimes)
    (haction : action ∈ ["start", "stop", "restart"]) :
    Quiet (containerAction u rt action id (ownerField data "root") (strField data "_user")
      (strField data "password")) ↔
    ¬ (isValidContainerRef u id ∧ OwnedOrElevated data "root") := by
  simp only [List.mem_cons, List.not_mem_nil, or_false] at haction
  rcases haction with rfl | rfl | rfl
  · exact quiet_ownedRuntime_iff hrt rfl (container_ok ["start", "--"] rfl)
  · exact quiet_ownedRuntime_iff hrt rfl (container_ok ["stop", "--"] rfl)
  · exact quiet_ownedRuntime_iff hrt rfl (container_ok ["restart", "--"] rfl)

theorem quiet_prune_iff (args : List String) (hrt : rt ∈ runtimes)
    (hobs : observingRuntime.any (·.isPrefixOf args) = false) (hno : NoNul args) :
    Quiet (plainWrite (strField data "_user") (strField data "password") (rt :: args)) ↔
      ¬ PlainOrElevated data :=
  (quiet_plainRuntime_iff _ _ args hrt hobs).trans (not_congr (and_iff_left hno))

theorem quiet_containerDispatch_iff (hrt : rt ∈ runtimes) :
    Quiet (containerDispatch u rt data) ↔ ¬ Mutates u data := by
  unfold containerDispatch Mutates
  dsimp only
  generalize strField data "action" = action
  split
  case h_1 => exact iff_of_true (quiet_listMerged hrt rfl) not_false
  case h_2 => exact iff_of_true (quiet_listMerged hrt rfl) not_false
  case h_3 => exact iff_of_true (quiet_inspect hrt rfl) not_false
  case h_4 => exact quiet_containerAction_iff hrt (by decide)
  case h_5 => exact quiet_containerAction_iff hrt (by decide)
  case h_6 => exact quiet_containerAction_iff hrt (by decide)
  case h_7 =>
    exact quiet_ownedRuntime_iff hrt rfl fun h =>
      ⟨ne_empty_of_isValidContainerRef h, noNul_owned rfl (hasNul_of_isValidContainerRef h)⟩
  case h_8 =>
    exact quiet_ownedRuntime_iff hrt rfl fun h =>
      ⟨ne_empty_of_isValidImageRef h, noNul_owned rfl (hasNul_of_isValidImageRef h)⟩
  case h_9 => exact quiet_pullImage_iff hrt
  case h_10 => exact quiet_createContainer_iff hrt
  case h_11 => exact iff_of_true (quiet_inspect hrt rfl) not_false
  case h_12 => exact iff_of_true (quiet_serviceStatus rt) not_false
  case h_13 => exact quiet_serviceActionSudo_iff (by decide)
  case h_14 => exact quiet_serviceActionSudo_iff (by decide)
  case h_15 => exact quiet_serviceActionSudo_iff (by decide)
  case h_16 => exact iff_of_true (quiet_readRuntime hrt rfl) not_false
  case h_17 => exact iff_of_true (quiet_listMerged hrt rfl) not_false
  case h_18 => exact iff_of_true (quiet_inspect hrt rfl) not_false
  case h_19 => exact quiet_volumeCreate_iff hrt
  case h_20 => exact quiet_ownedRuntime_iff hrt rfl (container_ok ["volume", "rm", "--"] rfl)
  case h_21 => exact quiet_prune_iff ["volume", "prune", "-f"] hrt rfl rfl
  case h_22 => exact iff_of_true (quiet_listMerged hrt rfl) not_false
  case h_23 => exact iff_of_true (quiet_inspect hrt rfl) not_false
  case h_24 => exact quiet_networkCreate_iff hrt
  case h_25 => exact quiet_networkMember_iff hrt (by decide)
  case h_26 => exact quiet_networkMember_iff hrt (by decide)
  case h_27 => exact quiet_ownedRuntime_iff hrt rfl (container_ok ["network", "rm", "--"] rfl)
  case h_28 => exact quiet_prune_iff ["network", "prune", "--force"] hrt rfl rfl
  case h_29 => exact quiet_prune_iff ["container", "prune", "-f"] hrt rfl rfl
  case h_30 => exact quiet_prune_iff ["image", "prune", "-f"] hrt rfl rfl
  case h_31 =>
    exact (quiet_sudoRuntime_iff _ _ ["system", "prune", "-f"] hrt rfl).trans
      (not_congr (and_congr_right' (and_iff_left rfl)))
  case h_32 =>
    refine iff_of_true (quiet_pure _) ?_
    split <;> simp_all

/-! ## The runtime of the host -/

theorem quiet_succeeds (stdin : Option String) (h : observes (stripSudo argv)) :
    Quiet (succeeds argv stdin) := by
  refine Quiet.bind (quiet_run_iff.2 (Or.inr h)) ?_
  rintro (_ | _) <;> exact quiet_pure _

theorem quiet_findRuntime {f : String → HostM Bool} (h : ∀ rt ∈ runtimes, Quiet (f rt)) :
    Quiet (runtimes.findM? f) := Prog.Only.findM? h

theorem observes_plain (hrt : rt ∈ runtimes) (h : observingRuntime.any (·.isPrefixOf args)) :
    observes (stripSudo (rt :: args)) := by
  rw [stripSudo_runtime hrt, observes_runtime hrt, h]

theorem quiet_detectRuntime : Quiet detectRuntime := by
  refine Quiet.bind (quiet_findRuntime fun rt hrt => ?_) ?_
  · exact quiet_succeeds none (observes_plain hrt rfl)
  rintro (_ | rt)
  · exact quiet_findRuntime fun rt hrt => quiet_succeeds none (observes_plain hrt rfl)
  · exact quiet_pure _

theorem quiet_detectRuntimeSudo (password : String) : Quiet (detectRuntimeSudo password) := by
  refine quiet_findRuntime fun rt hrt => quiet_succeeds _ ?_
  simp only [runtimes, List.mem_cons, List.not_mem_nil, or_false] at hrt
  rcases hrt with rfl | rfl <;> rfl

theorem mem_of_returns_detectRuntime (h : detectRuntime.Returns (some rt)) : rt ∈ runtimes := by
  obtain ⟨found, hfound, h⟩ := (Prog.returns_bind _ _ _).1 h
  cases found with
  | some rt' =>
    cases h
    exact Prog.mem_of_returns_findM? hfound
  | none => exact Prog.mem_of_returns_findM? h

/-- On a host whose `docker` answers. -/
theorem returns_detectRuntime : detectRuntime.Returns (some "docker") := by
  have hdocker : (succeeds ("docker" :: infoArgs) none).Returns true :=
    (Prog.returns_bind _ _ _).2 ⟨.ok ⟨true, "", "", false⟩, returns_run rfl _, rfl⟩
  have hfind : (runtimes.findM? fun rt => succeeds (rt :: infoArgs) none).Returns
      (some "docker") := (Prog.returns_bind _ _ _).2 ⟨true, hdocker, rfl⟩
  exact (Prog.returns_bind _ _ _).2 ⟨some "docker", hfind, rfl⟩

theorem quiet_containerOpen : Quiet containerOpen := by
  refine quiet_detectRuntime.bind_iff.2 ?_
  rintro (_ | rt) hrt
  · exact (quiet_perform _).2 rfl
  · have hversion : observes (stripSudo [rt, "version", "--format", "json"]) :=
      observes_plain (mem_of_returns_detectRuntime hrt) rfl
    exact Quiet.bind (quiet_run_iff.2 (Or.inr hversion)) fun _ => quiet_serviceStatus rt

theorem quiet_elevatedRuntime (password : String) : Quiet (elevatedRuntime password) :=
  Prog.Only.ite (fun _ => quiet_pure _) fun _ => quiet_detectRuntimeSudo password

theorem mem_of_returns_elevatedRuntime (h : (elevatedRuntime password).Returns (some rt)) :
    rt ∈ runtimes := by
  unfold elevatedRuntime at h
  split_ifs at h
  · cases h
  · exact Prog.mem_of_returns_findM? h

/-- The runtime that a request uses is one of those that are looked for. -/
theorem mem_of_returns_runtime {userRt sudoRt : Option String}
    (huser : detectRuntime.Returns userRt) (hsudo : (elevatedRuntime password).Returns sudoRt)
    (hrt : (userRt <|> sudoRt) = some rt) : rt ∈ runtimes := by
  cases userRt with
  | some rt' =>
    cases hrt
    exact mem_of_returns_detectRuntime huser
  | none =>
    cases hrt
    exact mem_of_returns_elevatedRuntime hsudo

theorem quiet_auditAction (data result : Value) : Quiet (auditAction data result) :=
  Prog.Only.ite (fun _ => (quiet_perform _).2 rfl) fun _ => quiet_pure _

/-- Some host changes by the request exactly when the request passes the checks of its action: the
role is not among them. -/
theorem quiet_containerData_iff : Quiet (containerData u data) ↔ ¬ Mutates u data := by
  unfold containerData
  constructor
  · intro h hmutates
    obtain ⟨sudoRt, hsudo⟩ := Prog.exists_returns (elevatedRuntime (strField data "password"))
    have hdocker := (quiet_bind_iff.1 ((quiet_bind_iff.1 h).2 _ returns_detectRuntime)).2 _ hsudo
    have hdispatch : Quiet (containerDispatch u "docker" data) := (quiet_bind_iff.1 hdocker).1
    exact (quiet_containerDispatch_iff (by decide)).1 hdispatch hmutates
  · intro h
    refine quiet_detectRuntime.bind_iff.2 fun userRt huser => ?_
    refine (quiet_elevatedRuntime _).bind_iff.2 fun sudoRt hsudo => ?_
    split
    next => exact quiet_pure _
    next rt hrt =>
      have hmem := mem_of_returns_runtime huser hsudo hrt
      refine Quiet.bind ((quiet_containerDispatch_iff hmem).2 h) fun result => ?_
      exact (quiet_auditAction data result).bind fun _ => quiet_pure _

end

end Tenodera.Agent.Host

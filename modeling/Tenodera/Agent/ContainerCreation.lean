import Tenodera.Agent.Accounts
import Tenodera.Agent.VolumePaths
import Tenodera.Lib.Getopt

/-!
# Containers as they are asked for

`create_container` makes a command line of the texts of a request, and the runtime takes it apart
again: the options by `getopt` up to the image, and then the values of some of them at a colon or an
equals sign.  `created_as_requested_iff` says when it finds the container of the request there.
-/

namespace Tenodera.Agent.Host.Containers

open Protocol Effect Getopt
open Users (nonempty only_sudoAsUser_of)

/-! ## What the runtime reads -/

/-- What the manual pages say of the options that the agent uses. -/
structure Documented (sudoSpec runSpec : Spec) : Prop where
  sudoFlags : ∀ c ∈ ['S', 'k'], sudoSpec (.short c) = some false
  detach : runSpec (.short 'd') = some false
  repeated : ∀ c ∈ ['p', 'e', 'v'], runSpec (.short c) = some true
  named : ∀ name ∈ ["name", "restart"], runSpec (.long name) = some true

/-- A container as `run` creates it.  A mapping of ports and a mount are in their parts: both sides,
and perhaps an address or a mode. -/
structure Container where
  detached : Bool
  name : Option String
  ports : List (List String)
  env : List (String × String)
  mounts : List (List String)
  restart : Option String
  image : String
  command : List String
  deriving DecidableEq

/-- The runtime, the options and the operands of its `run` in a command line of `sudo`. -/
def readRun (sudoSpec runSpec : Spec) : List String → Option (String × List Opt × List String)
  | "sudo" :: words =>
    match parseFirst sudoSpec words with
    | some (_, rt :: "run" :: words) => (parseFirst runSpec words).map fun r => (rt, r)
    | _ => none
  | _ => none

def valuesOf (flag : Flag) (opts : List Opt) : List String :=
  opts.filterMap fun o => if o.flag = flag then o.value else none

def pieces (sep : Char) (value : String) : List String :=
  (value.toList.splitOn sep).map String.ofList

/-- The name of a variable ends at the first equals sign. -/
def variableOf (value : String) : String × String :=
  (String.ofList (value.toList.takeWhile (· ≠ '=')),
    String.ofList (value.toList.dropWhile (· ≠ '=')).tail)

def Container.read (opts : List Opt) : List String → Option Container
  | [] => none
  | image :: command => some
    { detached := opts.any fun o => o.flag = .short 'd'
      name := (valuesOf (.long "name") opts).getLast?
      ports := (valuesOf (.short 'p') opts).map (pieces ':')
      env := (valuesOf (.short 'e') opts).map variableOf
      mounts := (valuesOf (.short 'v') opts).map (pieces ':')
      restart := (valuesOf (.long "restart") opts).getLast?
      image := image
      command := command }

/-- The runtime that a command line runs, and the container that it creates. -/
def created (sudoSpec runSpec : Spec) (argv : List String) : Option (String × Container) :=
  (readRun sudoSpec runSpec argv).bind fun r =>
    (Container.read r.2.1 r.2.2).map fun made => (r.1, made)

/-! ## What the request asks for -/

/-- The variables that have a name. -/
def envVars (data : Value) : List (String × String) :=
  (pairsField data "env" "key" "value").filter fun e => e.1 ≠ ""

def requested (data : Value) : Container where
  detached := true
  name := nonempty (strField data "name")
  ports := (ports data).map fun p => [p.1, p.2]
  env := envVars data
  mounts := (volumes data).map fun v => [v.1, v.2]
  restart := nonempty (strField data "restart")
  image := qualifyImage (strField data "image")
  command := commandArgs data

def setting (name value : String) : List Opt :=
  if value = "" then [] else [⟨.long name, some value⟩]

def runOptions (data : Value) : List Opt :=
  ⟨.short 'd', none⟩ :: (setting "name" (strField data "name") ++
    (ports data).map (fun p => ⟨.short 'p', some (p.1 ++ ":" ++ p.2)⟩) ++
      (envVars data).map (fun e => ⟨.short 'e', some (e.1 ++ "=" ++ e.2)⟩) ++
        (volumes data).map (fun v => ⟨.short 'v', some (v.1 ++ ":" ++ v.2)⟩) ++
          setting "restart" (strField data "restart"))

/-- No name of a variable holds an equals sign, and no path of a volume a colon. -/
def Unambiguous (data : Value) : Prop :=
  (∀ e ∈ envVars data, '=' ∉ e.1.toList) ∧
    ∀ v ∈ volumes data, ':' ∉ v.1.toList ∧ ':' ∉ v.2.toList

section

variable {u : Text.Alphanumeric} {sudoSpec runSpec : Spec} {data : Value}
  {rt user password k v : String} {name ports' restart : List String} {c : Command}

/-! ## Texts with a separator -/

theorem pieces_eq_iff {sep : Char} :
    pieces sep (k ++ String.singleton sep ++ v) = [k, v] ↔ sep ∉ k.toList ∧ sep ∉ v.toList := by
  have htext : (k ++ String.singleton sep ++ v).toList =
      [sep].intercalate [k.toList, v.toList] := by
    simp [List.intercalate]
  constructor
  · intro h
    have hparts : (k ++ String.singleton sep ++ v).toList.splitOn sep = [k.toList, v.toList] := by
      have hmap := congrArg (List.map String.toList) h
      rwa [pieces, List.map_map, String.toList_comp_ofList, List.map_id] at hmap
    exact ⟨Path.notMem_of_mem_splitOn (hparts ▸ List.mem_cons_self),
      Path.notMem_of_mem_splitOn (hparts ▸ List.mem_cons_of_mem _ List.mem_cons_self)⟩
  · rintro ⟨hk, hv⟩
    have hnot : ∀ l ∈ [k.toList, v.toList], sep ∉ l := by
      simp [hk, hv]
    rw [pieces, htext, List.splitOn_intercalate sep hnot (List.cons_ne_nil _ _)]
    simp

theorem variableOf_eq_iff : variableOf (k ++ "=" ++ v) = (k, v) ↔ '=' ∉ k.toList := by
  have htext : (k ++ "=" ++ v).toList = k.toList ++ '=' :: v.toList := by simp
  constructor
  · intro h hmem
    have hname : ((k ++ "=" ++ v).toList.takeWhile (· ≠ '=')) = k.toList := by
      have hfst := congrArg (fun r : String × String => r.1.toList) h
      rwa [variableOf, String.toList_ofList] at hfst
    rw [← hname] at hmem
    have hne := List.mem_takeWhile_imp (p := fun c => decide (c ≠ '=')) hmem
    exact absurd rfl (of_decide_eq_true hne)
  · intro hk
    have hall : ∀ c ∈ k.toList, decide (c ≠ '=') = true :=
      fun c hc => decide_eq_true fun heq => hk (heq ▸ hc)
    rw [variableOf, htext, List.takeWhile_append_of_pos hall, List.dropWhile_append_of_pos hall]
    simp

theorem colon_notMem_of_isPort {port : String} (h : isPort port) : ':' ∉ port.toList := by
  intro hmem
  have hnone : Text.parseUnsigned 16 (String.ofList port.toList) = none :=
    Text.parseUnsigned_eq_none hmem (by decide) (by decide)
  rw [String.ofList_toList] at hnone
  rw [isPort, hnone] at h
  cases h

/-! ## The command line -/

theorem words_setting (name value : String) : (setting name value).flatMap Opt.words =
    if value = "" then [] else [(Flag.long name).word, value] := by
  unfold setting
  split_ifs <;> rfl

theorem knows_setting (hplain : (Flag.long k).Plain) (h : runSpec (.long k) = some true) :
    ∀ o ∈ setting k v, Knows runSpec o := by
  intro o ho
  unfold setting at ho
  split_ifs at ho
  · cases ho
  · rw [List.mem_singleton.1 ho]
    exact ⟨hplain, h⟩

theorem readRun_cons {words words' : List String} {opts : List Opt}
    (h : parseFirst sudoSpec words = some (opts, rt :: "run" :: words')) :
    readRun sudoSpec runSpec ("sudo" :: words) =
      (parseFirst runSpec words').map fun r => (rt, r) := by
  rw [readRun, h]
  rfl

theorem knows_runOptions (hspec : Documented sudoSpec runSpec) :
    ∀ o ∈ runOptions data, Knows runSpec o := by
  intro o ho
  simp only [runOptions, List.mem_cons, List.mem_append, List.mem_map] at ho
  rcases ho with rfl | (((ho | ⟨p, -, rfl⟩) | ⟨e, -, rfl⟩) | ⟨v, -, rfl⟩) | ho
  · exact ⟨by simp [Flag.Plain], hspec.detach⟩
  · exact knows_setting ⟨by decide, by decide⟩ (hspec.named "name" (by simp)) o ho
  · exact ⟨by simp [Flag.Plain], hspec.repeated 'p' (by simp)⟩
  · exact ⟨by simp [Flag.Plain], hspec.repeated 'e' (by simp)⟩
  · exact ⟨by simp [Flag.Plain], hspec.repeated 'v' (by simp)⟩
  · exact knows_setting ⟨by decide, by decide⟩ (hspec.named "restart" (by simp)) o ho

theorem eq_of_nameArgs (h : nameArgs u data = .ok name) :
    name = (setting "name" (strField data "name")).flatMap Opt.words := by
  unfold nameArgs at h
  rw [words_setting]
  dsimp only at h
  split_ifs at h with hempty
  · rw [if_pos hempty, Except.ok.inj h]
  · rw [if_neg hempty, ← Except.ok.inj h]
    rfl

theorem eq_of_restartArgs (h : restartArgs data = .ok restart) :
    restart = (setting "restart" (strField data "restart")).flatMap Opt.words := by
  unfold restartArgs at h
  rw [words_setting]
  dsimp only at h
  split_ifs at h with hempty
  · rw [if_pos hempty, Except.ok.inj h]
  · rw [if_neg hempty, ← Except.ok.inj h]
    rfl

theorem eq_of_portArgs (h : portArgs data = .ok ports') :
    ports' = ((ports data).map fun p => (⟨.short 'p', some (p.1 ++ ":" ++ p.2)⟩ : Opt)).flatMap
      Opt.words ∧ ∀ p ∈ ports data, isPort p.1 ∧ isPort p.2 := by
  unfold portArgs at h
  split at h
  · cases h
  · rename_i hfind
    refine ⟨?_, fun p hp => by simpa using List.find?_eq_none.1 hfind p hp⟩
    rw [← Except.ok.inj h, List.flatMap_map]
    rfl

theorem words_runOptions (hname : nameArgs u data = .ok name) (hports : portArgs data = .ok ports')
    (hrestart : restartArgs data = .ok restart) (operands : List String) :
    [rt, "run", "-d"] ++ name ++ ports' ++ envArgs data ++ volumeFlags (volumes data) ++ restart ++
      "--" :: operands =
        rt :: "run" :: ((runOptions data).flatMap Opt.words ++ "--" :: operands) := by
  have henv : envArgs data = ((envVars data).map fun e =>
      (⟨.short 'e', some (e.1 ++ "=" ++ e.2)⟩ : Opt)).flatMap Opt.words := by
    rw [List.flatMap_map]
    rfl
  have hvolumes : volumeFlags (volumes data) = ((volumes data).map fun v =>
      (⟨.short 'v', some (v.1 ++ ":" ++ v.2)⟩ : Opt)).flatMap Opt.words := by
    rw [List.flatMap_map]
    rfl
  have hdetach : Opt.words ⟨.short 'd', none⟩ = ["-d"] := rfl
  rw [runOptions, List.flatMap_cons, hdetach]
  simp only [List.flatMap_append, ← eq_of_nameArgs hname, ← (eq_of_portArgs hports).1,
    ← eq_of_restartArgs hrestart, ← henv, ← hvolumes, List.append_assoc, List.cons_append,
    List.nil_append]

/-! ## What is found in it -/

/-- The options are those of the request, whatever its texts look like. -/
theorem readRun_eq (hspec : Documented sudoSpec runSpec) (hrt : rt ∈ runtimes)
    (operands : List String) :
    readRun sudoSpec runSpec ("sudo" :: "-S" :: "-k" :: rt :: "run" ::
      ((runOptions data).flatMap Opt.words ++ "--" :: operands)) =
        some (rt, runOptions data, operands) := by
  have hflags : ∀ o ∈ [('S', none), ('k', none)], Takes sudoSpec o := by
    intro o ho
    simp only [List.mem_cons, List.not_mem_nil, or_false] at ho
    rcases ho with rfl | rfl
    · exact ⟨by decide, hspec.sudoFlags 'S' (by simp)⟩
    · exact ⟨by decide, hspec.sudoFlags 'k' (by simp)⟩
  have hoperand : classify rt = .operand := by
    rcases List.mem_pair.1 hrt with rfl | rfl <;> decide
  have hsudo := parseFirst_render hflags hoperand
    ("run" :: ((runOptions data).flatMap Opt.words ++ "--" :: operands))
  refine (readRun_cons hsudo).trans ?_
  rw [parseFirst_words (knows_runOptions hspec)]
  rfl

theorem valuesOf_map {α : Type*} (flag flag' : Flag) (f : α → String) (l : List α) :
    valuesOf flag (l.map fun a => ⟨flag', some (f a)⟩) = if flag' = flag then l.map f else [] := by
  rw [valuesOf, List.filterMap_map]
  split_ifs with h <;> simp [h]

theorem valuesOf_setting (flag : Flag) (name value : String) : valuesOf flag (setting name value) =
    if flag = .long name then (nonempty value).toList else [] := by
  unfold setting nonempty
  split_ifs <;> simp_all [valuesOf, eq_comm]

/-- The container of the command line, with its texts as they are taken apart. -/
theorem read_runOptions (image : String) (command : List String) :
    Container.read (runOptions data) (image :: command) = some
      { detached := true
        name := nonempty (strField data "name")
        ports := (ports data).map fun p => pieces ':' (p.1 ++ ":" ++ p.2)
        env := (envVars data).map fun e => variableOf (e.1 ++ "=" ++ e.2)
        mounts := (volumes data).map fun v => pieces ':' (v.1 ++ ":" ++ v.2)
        restart := nonempty (strField data "restart")
        image := image
        command := command } := by
  have hvalues (flag : Flag) : valuesOf flag (runOptions data) =
      (if flag = .long "name" then (nonempty (strField data "name")).toList else []) ++
        (if .short 'p' = flag then (ports data).map fun p => p.1 ++ ":" ++ p.2 else []) ++
          (if .short 'e' = flag then (envVars data).map fun e => e.1 ++ "=" ++ e.2 else []) ++
            (if .short 'v' = flag then (volumes data).map fun v => v.1 ++ ":" ++ v.2 else []) ++
              (if flag = .long "restart" then (nonempty (strField data "restart")).toList
                else []) := by
    rw [← valuesOf_setting, ← valuesOf_setting, ← valuesOf_map, ← valuesOf_map, ← valuesOf_map]
    simp [valuesOf, runOptions]
  have hlast (value : Option String) : value.toList.getLast? = value := by
    cases value <;> rfl
  have hdetach : (runOptions data).any (fun o => o.flag = .short 'd') = true := by
    simp [runOptions]
  simp [Container.read, hvalues, hlast, hdetach, Function.comp_def]

/-- The texts that are taken apart are those of the request unless one of them holds the separator
itself. -/
theorem read_eq_requested_iff (hports : ∀ p ∈ ports data, isPort p.1 ∧ isPort p.2) :
    Container.read (runOptions data) (qualifyImage (strField data "image") :: commandArgs data) =
      some (requested data) ↔ Unambiguous data := by
  have hmappings : ((ports data).map fun p => pieces ':' (p.1 ++ ":" ++ p.2)) =
      (ports data).map fun p => [p.1, p.2] :=
    List.map_congr_left fun p hp => pieces_eq_iff.2
      ⟨colon_notMem_of_isPort (hports p hp).1, colon_notMem_of_isPort (hports p hp).2⟩
  have henv : ((envVars data).map fun e => variableOf (e.1 ++ "=" ++ e.2)) = envVars data ↔
      ∀ e ∈ envVars data, '=' ∉ e.1.toList := by
    conv_lhs => rhs; rw [← List.map_id' (envVars data)]
    rw [List.map_inj_left]
    exact forall₂_congr fun e _ => variableOf_eq_iff
  have hmounts : ((volumes data).map fun v => pieces ':' (v.1 ++ ":" ++ v.2)) =
      ((volumes data).map fun v => [v.1, v.2]) ↔
        ∀ v ∈ volumes data, ':' ∉ v.1.toList ∧ ':' ∉ v.2.toList := by
    rw [List.map_inj_left]
    exact forall₂_congr fun v _ => pieces_eq_iff
  rw [read_runOptions, Unambiguous, ← henv, ← hmounts]
  simp [requested, hmappings]

/-- What changes the host is a command. -/
theorem only_createContainer : (createContainer u rt data user password).Only fun o =>
    o.changesState = true → ∃ cmd, o = .run cmd := by
  have hquiet {α : Type} {p : HostM α} (hp : Quiet p) :
      p.Only fun o => o.changesState = true → ∃ cmd, o = .run cmd :=
    fun _ ho hchanges => absurd ho (hp.not_asks hchanges)
  unfold createContainer withRef
  refine Prog.Only.ite (fun _ => hquiet (quiet_pure _)) fun _ => ?_
  refine Prog.Only.ite (fun _ => hquiet (quiet_pure _)) fun _ => ?_
  refine Prog.Only.ite (fun _ => hquiet (quiet_pure _)) fun _ => ?_
  split
  · exact hquiet (quiet_pure _)
  · exact hquiet (quiet_pure _)
  · refine Prog.Only.bind (hquiet (quiet_volumeArgsOf _)) ?_
    rintro (_ | flags)
    · exact hquiet (quiet_pure _)
    · dsimp only
      split
      · exact hquiet (quiet_pure _)
      · exact only_sudoAsUser_of (fun name h => by cases h) fun _ => ⟨_, rfl⟩

/-- The command of `create_container`. -/
theorem created_of_asks (hspec : Documented sudoSpec runSpec) (hrt : rt ∈ runtimes)
    (hc : (createContainer u rt data user password).Asks (.run c)) :
    c.runAs = some user ∧
      readRun sudoSpec runSpec c.argv = some
        (rt, runOptions data, qualifyImage (strField data "image") :: commandArgs data) ∧
      (created sudoSpec runSpec c.argv = some (rt, requested data) ↔ Unambiguous data) := by
  obtain ⟨-, name, ports', restart, hname, hports, hrestart, -, hrun⟩ :=
    asksIf_createContainer_iff.1 (Prog.asksIf_true_iff.2 hc)
  obtain ⟨-, rfl⟩ := asks_sudoAsUser_iff.1 (Prog.asksIf_true_iff.1 hrun)
  have hwords : [rt, "run", "-d"] ++ name ++ ports' ++ envArgs data ++ volumeFlags (volumes data) ++
      restart ++ "--" :: (qualifyImage (strField data "image") :: commandArgs data) =
        rt :: "run" :: ((runOptions data).flatMap Opt.words ++
          "--" :: (qualifyImage (strField data "image") :: commandArgs data)) :=
    words_runOptions hname hports hrestart _
  have hread : readRun sudoSpec runSpec ("sudo" :: "-S" :: "-k" ::
      ([rt, "run", "-d"] ++ name ++ ports' ++ envArgs data ++ volumeFlags (volumes data) ++
        restart ++ ["--", qualifyImage (strField data "image")] ++ commandArgs data)) = some
          (rt, runOptions data, qualifyImage (strField data "image") :: commandArgs data) := by
    rw [← readRun_eq hspec hrt, ← hwords]
    simp
  refine ⟨rfl, hread, ?_⟩
  rw [← read_eq_requested_iff (eq_of_portArgs hports).2, created, hread, Option.bind_some,
    Option.map_eq_some_iff]
  constructor
  · rintro ⟨made, hmade, heq⟩
    cases heq
    exact hmade
  · exact fun h => ⟨_, h, rfl⟩

/-- What a request to create a container changes on the host is done by a command as its user, in
which the runtime finds the options, the image and the command of the request, whatever its texts
look like.  It creates the container that the request asks for iff no name of a variable holds an
equals sign and no path of a volume a colon. -/
theorem created_as_requested_iff (hspec : Documented sudoSpec runSpec)
    (haction : strField data "action" = "create") {o : Op} (ho : (containerData u data).Asks o)
    (hchanges : o.changesState = true) :
    ∃ cmd rt, o = .run cmd ∧ rt ∈ runtimes ∧ cmd.runAs = some (strField data "_user") ∧
      readRun sudoSpec runSpec cmd.argv = some
        (rt, runOptions data, qualifyImage (strField data "image") :: commandArgs data) ∧
      (created sudoSpec runSpec cmd.argv = some (rt, requested data) ↔ Unambiguous data) := by
  rw [containerData, Prog.asks_bind, or_iff_right (quiet_detectRuntime.not_asks hchanges)] at ho
  obtain ⟨userRt, huser, ho⟩ := ho
  rw [Prog.asks_bind, or_iff_right ((quiet_elevatedRuntime _).not_asks hchanges)] at ho
  obtain ⟨sudoRt, hsudo, ho⟩ := ho
  split at ho
  · exact absurd ho ((quiet_pure _).not_asks hchanges)
  · rename_i rt hfound
    have hrt := mem_of_returns_runtime huser hsudo hfound
    have hdispatch : containerDispatch u rt data =
        createContainer u rt data (strField data "_user") (strField data "password") := by
      rw [containerDispatch, haction]
      rfl
    rw [hdispatch, Prog.asks_bind] at ho
    rcases ho with ho | ⟨result, -, ho⟩
    · obtain ⟨cmd, rfl⟩ := only_createContainer o ho hchanges
      exact ⟨cmd, rt, rfl, hrt, created_of_asks hspec hrt ho⟩
    · exact absurd ho
        (Quiet.not_asks ((quiet_auditAction data result).bind fun _ => quiet_pure _) hchanges)

/-- Of the long options of `docker run` a few. -/
def dockerRun : Spec
  | .short c => Users.manual "diPqt" "acehlmpuvw" (.short c)
  | .long name =>
    if name ∈ ["privileged", "rm"] then some false
    else if name ∈ ["name", "restart", "network", "pid", "volume"] then some true
    else none

theorem documented_dockerRun : Documented (Users.shadowUtils "sudo") dockerRun := by
  constructor
  all_goals
    try simp only [List.forall_mem_cons, List.not_mem_nil, false_implies, implies_true, and_true]
    decide +kernel

/-- A container with an option of the runtime as its command. -/
def privilegedRequest : Value :=
  .object [("action", .string "create"), ("_user", .string "bob"), ("password", .string "secret"),
    ("image", .string "alpine"), ("name", .string "web"),
    ("ports", .array [.object [("host", .string "8080"), ("container", .string "80")]]),
    ("env", .array [.object [("key", .string "A"), ("value", .string "B=C --privileged")]]),
    ("command", .array [.string "--privileged"])]

def privilegedCommand : Command :=
  ⟨some "bob", "sudo" :: "-S" :: "-k" :: ["docker", "run", "-d", "--name", "web", "-p", "8080:80",
    "-e", "A=B=C --privileged", "--", qualifyImage "alpine", "--privileged"], some "secret\n"⟩

theorem asks_privilegedRequest :
    (containerData Text.asciiAlphanumeric privilegedRequest).Asks (.run privilegedCommand) := by
  have himage : isValidImageRef Text.asciiAlphanumeric (qualifyImage "alpine") := by
    decide +kernel
  have hname : nameArgs Text.asciiAlphanumeric privilegedRequest = .ok ["--name", "web"] := by
    decide +kernel
  have hports : portArgs privilegedRequest = .ok ["-p", "8080:80"] := by
    decide +kernel
  have hsudo : (sudoAsUser "bob" "secret" ["docker", "run", "-d", "--name", "web", "-p", "8080:80",
      "-e", "A=B=C --privileged", "--", qualifyImage "alpine", "--privileged"]).Asks
        (.run privilegedCommand) :=
    asks_sudoAsUser_iff.2 ⟨⟨by decide, by decide +kernel⟩, rfl⟩
  have hfield : strField privilegedRequest "image" = "alpine" := rfl
  have henv : envArgs privilegedRequest = ["-e", "A=B=C --privileged"] := by decide +kernel
  have hvolumes : volumes privilegedRequest = [] := rfl
  have hcommand : commandArgs privilegedRequest = ["--privileged"] := by decide +kernel
  have hcreate : (createContainer Text.asciiAlphanumeric "docker" privilegedRequest "bob"
      "secret").Asks (.run privilegedCommand) := by
    rw [← Prog.asksIf_true_iff, asksIf_createContainer_iff, hfield, henv, hvolumes, hcommand]
    exact ⟨⟨by decide, himage, by decide⟩, _, _, [], hname, hports, rfl,
      fun v hv => absurd hv List.not_mem_nil, Prog.asksIf_true_iff.2 hsudo⟩
  obtain ⟨sudoRt, hrt⟩ := Prog.exists_returns (elevatedRuntime "secret")
  refine (Prog.asks_bind _ _ _).2 (.inr ⟨_, returns_detectRuntime, ?_⟩)
  refine (Prog.asks_bind _ _ _).2 (.inr ⟨sudoRt, hrt, ?_⟩)
  exact (Prog.asks_bind _ _ _).2 (.inl hcreate)

theorem created_as_requested_privileged : ∃ cmd rt, Op.run privilegedCommand = .run cmd ∧
    created (Users.shadowUtils "sudo") dockerRun cmd.argv =
      some (rt, requested privilegedRequest) := by
  obtain ⟨cmd, rt, hcmd, -, -, -, hcreated⟩ := created_as_requested_iff documented_dockerRun rfl
    asks_privilegedRequest (by decide +kernel)
  exact ⟨cmd, rt, hcmd, hcreated.2 ⟨by decide, by decide⟩⟩

end

end Tenodera.Agent.Host.Containers

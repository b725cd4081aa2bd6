import Tenodera.Agent.ContainerEffects
import Tenodera.Agent.Networking

/-!
# Who runs the commands of a request

A command about containers, firewalls or the journal should run as the user of the request, or
through `sudo` as that user with the password of the request, so that the host decides.
`mediated_iff` says which requests of the container and the network handler make the agent itself
run such a command, or a `sudo` that the agent starts.
-/

namespace Tenodera.Agent.Host

open Protocol Effect

/-! ## What the host should decide -/

/-- The command reads or changes containers, images, firewall rules or the journal.  `info` and
`version` tell about a container runtime itself. -/
def concerns : List String → Bool
  | "docker" :: sub :: _ | "podman" :: sub :: _ => sub ∉ ["info", "version", "--version"]
  | "systemctl" :: verb :: unit :: _ =>
    verb ∈ ["start", "stop", "restart"] &&
      unit ∈ ["docker.service", "podman.socket", "firewalld", "nftables"]
  | program :: _ => program ∈ ["ufw", "firewall-cmd", "nft", "iptables", "journalctl"]
  | [] => false

/-- The command runs as the user, and if it is `sudo`, with the password of the user. -/
def Command.Brokered (user password : String) (command : Command) : Prop :=
  command.runAs = some user ∧
    (command.argv.head? = some "sudo" → ∃ args,
      command.argv = "sudo" :: "-S" :: "-k" :: args ∧ command.stdin = some (password ++ "\n"))

/-- The command runs as the root: the agent starts it, or a `sudo` that accepts a password. -/
def Command.AsRoot (accepts : String → String → Bool) (command : Command) : Prop :=
  command.runAs = none ∨ ∃ user password, command.runAs = some user ∧
    command.argv.head? = some "sudo" ∧ command.stdin = some (password ++ "\n") ∧
    accepts user password

def Op.Brokered (user password : String) : Op → Prop
  | .run command => concerns (stripSudo command.argv) → command.Brokered user password
  | _ => True

/-- The operation reads or changes what belongs to the root. -/
def Op.ReachesRoot (accepts : String → String → Bool) : Op → Prop
  | .run command => concerns (stripSudo command.argv) ∧ command.AsRoot accepts
  | _ => False

/-- Every command that the program runs about containers, firewalls or the journal is brokered, and
nothing of the root's is reached with a password that `sudo` does not accept from the user. -/
def Mediated (user password : String) (p : HostM Value) : Prop :=
  p.Only (Op.Brokered user password) ∧
    ∀ accepts, accepts user password = false → p.Only fun o => ¬ o.ReachesRoot accepts

/-! ## Requests -/

/-- The requests of the two handlers; the `open` of `networking.manage` only answers. -/
inductive Request
  | containerOpen
  | container (data : Value)
  | network (data : Value)

namespace Request

def data : Request → Value
  | containerOpen => .null
  | container data | network data => data

def user (r : Request) : String := strField r.data "_user"

def password (r : Request) : String := strField r.data "password"

def serve (u : Text.Alphanumeric) : Request → HostM Value
  | containerOpen => Host.containerOpen
  | container data => containerData u data
  | network data => networkData u data

end Request

/-- The request reads through a `sudo` of the agent. -/
def ReadsAsAgent (u : Text.Alphanumeric) (data : Value) : Prop :=
  let rootRead := ownerField data "user" = "root" ∧ strField data "password" ≠ ""
  match strField data "action" with
  | "list_containers" | "list_images" | "volumes_list" | "networks_list" | "stats_all" =>
    strField data "password" ≠ ""
  | "inspect" | "logs" | "network_inspect" => isValidContainerRef u (strField data "id") ∧ rootRead
  | "volume_inspect" => isValidContainerRef u (strField data "name") ∧ rootRead
  | _ => False

/-- If the request writes, the agent itself does. -/
def WritesAsAgent (data : Value) : Prop :=
  match strField data "action" with
  | "start" | "stop" | "restart" | "remove" | "remove_image" => ownerField data "root" ≠ "root"
  | "volume_remove" | "network_remove" => ownerField data "user" ≠ "root"
  | "volume_create" | "volume_prune" | "network_create" | "network_connect" | "network_disconnect"
  | "network_prune" | "container_prune" | "image_prune" => strField data "password" = ""
  | _ => False

/-- The agent itself, or a `sudo` that it starts, runs a command of the request. -/
def Request.ByAgent (u : Text.Alphanumeric) : Request → Prop
  | containerOpen => False
  | container data => ReadsAsAgent u data ∨ Mutates u data ∧ WritesAsAgent data
  | network data =>
    strField data "action" ∈ ["firewall_status", "firewall_rules"] ∨
      strField data "action" = "network_logs" ∧ isAdmin data

/-! ## Programs that run commands as the user -/

/-- The commands of the program are brokered. -/
def AsUser {α : Type} (user password : String) (p : HostM α) : Prop :=
  p.Only (Op.Brokered user password)

section

variable {α β : Type} {user password rt ref : String} {runAs stdin : Option String}
  {argv args : List String} {p : HostM α} {f : α → HostM β}

theorem not_reachesRoot_of_brokered {o : Op} {accepts : String → String → Bool}
    (h : o.Brokered user password) (hno : accepts user password = false) :
    ¬ o.ReachesRoot accepts := by
  cases o with
  | run command =>
    rintro ⟨hconcerns, hroot⟩
    obtain ⟨hrunAs, hsudo⟩ := h hconcerns
    obtain hnone | ⟨user', password', hrunAs', hhead, hstdin, haccepts⟩ := hroot
    · cases hnone.symm.trans hrunAs
    · obtain ⟨args, -, hstdin'⟩ := hsudo hhead
      have huser : user = user' := Option.some.inj (hrunAs.symm.trans hrunAs')
      have hpassword : password = password' := by
        have heq : password ++ "\n" = password' ++ "\n" :=
          Option.some.inj (hstdin'.symm.trans hstdin)
        exact (String.append_left_inj "\n").1 heq
      subst huser hpassword
      rw [hno] at haccepts
      cases haccepts
  | _ => exact not_false

theorem mediated_iff_asUser {p : HostM Value} :
    Mediated user password p ↔ AsUser user password p :=
  ⟨fun h => h.1, fun h => ⟨h, fun _ hno o ho => not_reachesRoot_of_brokered (h o ho) hno⟩⟩

theorem asUser_pure (a : α) : AsUser user password (pure a : HostM α) := Prog.only_pure a

theorem AsUser.bind (hp : AsUser user password p) (hf : ∀ a, AsUser user password (f a)) :
    AsUser user password (p >>= f) :=
  Prog.Only.bind hp hf

theorem asUser_bind_iff : AsUser user password (p >>= f) ↔
    AsUser user password p ∧ ∀ a, p.Returns a → AsUser user password (f a) :=
  Prog.only_bind_iff

/-- A check that refuses the request comes before what is done. -/
theorem AsUser.check {c : Prop} [Decidable c] {refusal : α} (hp : AsUser user password p) :
    AsUser user password (if c then pure refusal else p) :=
  Prog.Only.ite (fun _ => asUser_pure _) fun _ => hp

/-- An operation that is not a command is none of the host's business here. -/
theorem asUser_perform {o : Op} (h : o.Brokered user password) :
    AsUser user password (perform o) :=
  Prog.only_perform.2 h

theorem asUser_run_iff : AsUser user password (run runAs argv stdin) ↔
    argv.any Text.hasNul ∨
      (concerns (stripSudo argv) → Command.Brokered user password ⟨runAs, argv, stdin⟩) := by
  unfold run
  split_ifs with h
  · exact iff_of_true (asUser_pure _) (.inl h)
  · rw [or_iff_right h]
    exact Prog.only_perform

/-- What the agent starts is not brokered. -/
theorem asUser_runAgent_iff : AsUser user password (run none argv stdin) ↔
    (NoNul argv → concerns (stripSudo argv) = false) := by
  rw [asUser_run_iff, NoNul, ← Bool.not_eq_true, ← Bool.not_eq_true, or_iff_not_imp_left]
  have hnot : ¬ Command.Brokered user password ⟨none, argv, stdin⟩ := fun h => by cases h.1
  simp only [hnot, imp_false]

theorem asUser_lookupUser (name : String) : AsUser user password (lookupUser name) := by
  unfold lookupUser
  split_ifs
  · exact asUser_pure _
  · exact asUser_perform trivial

theorem asUser_sudoAsUser (user password : String) (args : List String) :
    AsUser user password (sudoAsUser user password args) := by
  refine (asUser_lookupUser user).bind ?_
  rintro (_ | pwd)
  · exact asUser_pure _
  · refine AsUser.bind (asUser_run_iff.2 (.inr fun _ => ⟨rfl, fun _ => ⟨args, rfl, rfl⟩⟩)) ?_
    rintro (_ | out)
    · exact asUser_pure _
    · exact Prog.Only.ite (fun _ => asUser_pure _) fun _ => asUser_pure _

theorem asUser_runCmdAsUser (user password : String) (h : args.head? ≠ some "sudo") :
    AsUser user password (runCmdAsUser user args) := by
  refine (asUser_lookupUser user).bind ?_
  rintro (_ | pwd)
  · exact asUser_pure _
  · refine AsUser.bind (asUser_run_iff.2 (.inr fun _ => ⟨rfl, fun hsudo => absurd hsudo h⟩)) ?_
    rintro (_ | out) <;> exact asUser_pure _

theorem asUser_runCmdResult_iff : AsUser user password (runCmdResult argv) ↔
    (NoNul argv → concerns (stripSudo argv) = false) := by
  rw [runCmdResult, asUser_bind_iff, asUser_runAgent_iff, and_iff_left]
  rintro (_ | out) _
  · exact asUser_pure _
  · exact Prog.Only.ite (fun _ => asUser_pure _) fun _ => asUser_pure _

theorem asUser_runCmd_iff : AsUser user password (runCmd argv) ↔
    (NoNul argv → concerns (stripSudo argv) = false) := by
  rw [runCmd, asUser_bind_iff, asUser_runAgent_iff, and_iff_left]
  rintro (_ | out) _ <;> exact asUser_pure _

theorem asUser_which (cmd : String) : AsUser user password (which cmd) := by
  refine AsUser.bind (asUser_runAgent_iff.2 fun _ => rfl) ?_
  rintro (_ | out) <;> exact asUser_pure _

/-! ## The container handler -/

theorem concerns_runtime (hrt : rt ∈ runtimes) (sub : String) (args : List String) :
    concerns (rt :: sub :: args) = decide (sub ∉ ["info", "version", "--version"]) := by
  simp only [runtimes, List.mem_cons, List.not_mem_nil, or_false] at hrt
  rcases hrt with rfl | rfl <;> rfl

theorem stripSudo_agentSudo (hrt : rt ∈ runtimes) :
    stripSudo ("sudo" :: "-S" :: rt :: args) = rt :: args := by
  simp only [runtimes, List.mem_cons, List.not_mem_nil, or_false] at hrt
  rcases hrt with rfl | rfl <;> rfl

theorem head?_runtime (hrt : rt ∈ runtimes) : (rt :: args).head? ≠ some "sudo" := by
  simp only [runtimes, List.mem_cons, List.not_mem_nil, or_false] at hrt
  rcases hrt with rfl | rfl <;> simp

/-- A write of the agent itself is brokered only when it does not take place. -/
theorem asUser_runCmdResult_iff_quiet (hrt : rt ∈ runtimes)
    (hobs : observingRuntime.any (·.isPrefixOf args) = false)
    (hconcerns : concerns (rt :: args) = true) :
    AsUser user password (runCmdResult (rt :: args)) ↔ Quiet (runCmdResult (rt :: args)) := by
  rw [asUser_runCmdResult_iff, quiet_runCmdResult_iff, stripSudo_runtime hrt, observes_runtime hrt,
    hobs, hconcerns, NoNul]
  cases (rt :: args).any Text.hasNul <;> simp

theorem asUser_ownedWrite {owner needed : String} (howner : owner = "root") :
    AsUser user password (ownedWrite owner user password needed argv) := by
  unfold ownedWrite
  rw [if_pos howner]
  exact (asUser_sudoAsUser _ _ _).check

theorem asUser_plainWrite (hpw : password ≠ "") :
    AsUser user password (plainWrite user password argv) := by
  unfold plainWrite
  rw [if_neg hpw]
  exact asUser_sudoAsUser _ _ _

theorem asUser_sudoWrite : AsUser user password (sudoWrite user password argv) :=
  (asUser_sudoAsUser _ _ _).check

theorem asUser_withRef {missing invalid : String} {valid : String → Bool} {act : HostM Value}
    (h : AsUser user password act) : AsUser user password (withRef ref missing invalid valid act) :=
  AsUser.check (AsUser.check h)

theorem asUser_withRef_iff_quiet {missing invalid : String} {valid : String → Bool}
    {act : HostM Value} (h : AsUser user password act ↔ Quiet act) :
    AsUser user password (withRef ref missing invalid valid act) ↔
      Quiet (withRef ref missing invalid valid act) := by
  unfold withRef
  split_ifs
  · exact iff_of_true (asUser_pure _) (quiet_pure _)
  · exact h
  · exact iff_of_true (asUser_pure _) (quiet_pure _)

/-- A read through a `sudo` of the agent is not brokered. -/
theorem not_asUser_runSudo (hrt : rt ∈ runtimes) (hconcerns : concerns (rt :: args) = true)
    (hno : NoNul args) : ¬ AsUser user password (runSudo password (rt :: args)) := by
  intro h
  have hrun := asUser_runAgent_iff.1 (asUser_bind_iff.1 h).1
  rw [stripSudo_agentSudo hrt, hconcerns] at hrun
  cases hrun (noNul_cons_iff.2 ⟨rfl, noNul_cons_iff.2 ⟨rfl, noNul_cons_iff.2
    ⟨hasNul_runtime hrt, hno⟩⟩⟩)

theorem asUser_readRuntime_iff {elevated : Bool} (hrt : rt ∈ runtimes)
    (hconcerns : concerns (rt :: args) = true) (hno : NoNul args) :
    AsUser user password (readRuntime elevated user password (rt :: args)) ↔ elevated = false := by
  cases elevated with
  | false =>
    exact iff_of_true ((asUser_runCmdAsUser user password (head?_runtime hrt)).bind fun _ =>
      asUser_perform trivial) rfl
  | true =>
    refine iff_of_false (fun h => ?_) nofun
    exact not_asUser_runSudo hrt hconcerns hno (asUser_bind_iff.1 h).1

theorem asUser_listMerged_iff (hrt : rt ∈ runtimes) (hconcerns : concerns (rt :: args) = true)
    (hno : NoNul args) :
    AsUser user password (listMerged user password (rt :: args)) ↔ password = "" := by
  unfold listMerged
  constructor
  · intro h
    by_contra hpw
    obtain ⟨out, hout⟩ := Prog.exists_returns (runCmdAsUser user (rt :: args))
    have hrest := (asUser_bind_iff.1 h).2 out hout
    rw [if_pos hpw] at hrest
    exact not_asUser_runSudo hrt hconcerns hno (asUser_bind_iff.1 hrest).1
  · intro hpw
    refine (asUser_runCmdAsUser user password (head?_runtime hrt)).bind fun _ => ?_
    rw [if_neg (not_not.2 hpw)]
    exact asUser_perform trivial

/-- What an action does as a request of its kind: it reads as the agent, or is brokered unless it
writes as the agent. -/
structure Follows (user password : String) (p : HostM Value) (reads writes : Prop) : Prop where
  broken : reads → ¬ AsUser user password p
  kept : ¬ reads → ¬ writes → AsUser user password p
  written : writes → (AsUser user password p ↔ Quiet p)

theorem Follows.of_read {reads : Prop} {p : HostM Value} (h : AsUser user password p ↔ ¬ reads) :
    Follows user password p reads False :=
  ⟨fun hreads hp => h.1 hp hreads, fun hreads _ => h.2 hreads, False.elim⟩

theorem Follows.of_asUser {p : HostM Value} (h : AsUser user password p) :
    Follows user password p False False :=
  ⟨False.elim, fun _ _ => h, False.elim⟩

theorem Follows.of_write {writes : Prop} {p : HostM Value}
    (hkept : ¬ writes → AsUser user password p)
    (hwritten : writes → (AsUser user password p ↔ Quiet p)) :
    Follows user password p False writes :=
  ⟨False.elim, fun _ => hkept, hwritten⟩

theorem follows_pure {reads writes : Prop} (result : Value) (h : ¬ reads) :
    Follows user password (pure result) reads writes :=
  ⟨fun hreads => absurd hreads h, fun _ _ => asUser_pure _,
    fun _ => iff_of_true (asUser_pure _) (quiet_pure _)⟩

/-- The checks of a reference come first. -/
theorem Follows.withRef {writes : Prop} {act : HostM Value} {missing invalid : String}
    {valid : String → Bool} (h : Follows user password act False writes) :
    Follows user password (withRef ref missing invalid valid act) False writes :=
  .of_write (fun hwrites => asUser_withRef (h.kept id hwrites))
    fun hwrites => asUser_withRef_iff_quiet (h.written hwrites)

/-- An action on the objects of an owner. -/
theorem follows_owned {missing invalid owner needed : String} {valid : String → Bool}
    (hrt : rt ∈ runtimes) (hobs : observingRuntime.any (·.isPrefixOf args) = false)
    (hconcerns : concerns (rt :: args) = true) :
    Follows user password (withRef ref missing invalid valid
      (ownedWrite owner user password needed (rt :: args))) False (owner ≠ "root") := by
  refine (Follows.of_write (fun h => asUser_ownedWrite (not_not.1 h)) fun h => ?_).withRef
  unfold ownedWrite
  rw [if_neg h]
  exact asUser_runCmdResult_iff_quiet hrt hobs hconcerns

/-- An action that needs a password only to go through `sudo`. -/
theorem follows_plain (hrt : rt ∈ runtimes)
    (hobs : observingRuntime.any (·.isPrefixOf args) = false)
    (hconcerns : concerns (rt :: args) = true) :
    Follows user password (plainWrite user password (rt :: args)) False (password = "") := by
  refine .of_write asUser_plainWrite fun h => ?_
  unfold plainWrite
  rw [if_pos h]
  exact asUser_runCmdResult_iff_quiet hrt hobs hconcerns

variable {u : Text.Alphanumeric} {data : Value}

theorem follows_inspect {missing invalid : String} (hrt : rt ∈ runtimes)
    (hconcerns : concerns (rt :: args) = true)
    (hno : isValidContainerRef u ref → NoNul args) :
    Follows user password
      (withRef ref missing invalid (isValidContainerRef u)
        (inspect (ownerField data "user") user password (rt :: args)))
      (isValidContainerRef u ref ∧ ownerField data "user" = "root" ∧ password ≠ "") False := by
  refine .of_read ?_
  unfold withRef
  by_cases hvalid : isValidContainerRef u ref
  · rw [if_neg (ne_empty_of_isValidContainerRef hvalid), if_neg (not_not.2 hvalid), inspect,
      asUser_readRuntime_iff hrt hconcerns (hno hvalid)]
    simp [hvalid]
  · refine iff_of_true ?_ fun h => hvalid h.1
    exact Prog.Only.ite (fun _ => asUser_pure _) fun _ =>
      Prog.Only.ite (fun _ => asUser_pure _) fun h => absurd hvalid h

theorem follows_volumeCreate (hrt : rt ∈ runtimes) :
    Follows user password (volumeCreate u rt data user password) False (password = "") := by
  refine Follows.withRef ?_
  split
  · exact follows_pure _ id
  · exact follows_plain hrt rfl (concerns_runtime hrt "volume" _)

theorem follows_networkCreate (hrt : rt ∈ runtimes) :
    Follows user password (networkCreate u rt data user password) False (password = "") := by
  refine Follows.withRef ?_
  split
  · exact follows_pure _ id
  · exact follows_plain hrt rfl (concerns_runtime hrt "network" _)

theorem follows_networkMember {verb network container : String} (hrt : rt ∈ runtimes)
    (hverb : verb ∈ ["connect", "disconnect"]) :
    Follows user password (networkMember u rt verb network container user password) False
      (password = "") := by
  have hobs : observingRuntime.any (·.isPrefixOf ["network", verb, "--", network, container]) =
      false := by
    rcases List.mem_pair.1 hverb with rfl | rfl <;> rfl
  unfold networkMember
  split_ifs
  · exact follows_plain hrt hobs (concerns_runtime hrt "network" _)
  · exact follows_pure _ id
  · exact follows_pure _ id

theorem asUser_pullImage {image : String} :
    AsUser user password (pullImage u rt image user password) := by
  refine asUser_withRef (AsUser.check ?_)
  refine (asUser_sudoAsUser _ _ _).bind fun res => AsUser.bind (asUser_perform trivial) fun _ => ?_
  exact Prog.Only.ite (fun _ => asUser_pure _) fun _ => asUser_pure _

theorem asUser_isSafeVolumePath (path : String) :
    AsUser user password (isSafeVolumePath path) := by
  refine AsUser.check (AsUser.bind ?_ ?_)
  · exact AsUser.check (asUser_perform trivial)
  · rintro (_ | resolved) <;> exact asUser_pure _

theorem asUser_volumeArgsOf (vs : List (String × String)) :
    AsUser user password (volumeArgsOf vs) := by
  induction vs with
  | nil => exact asUser_pure _
  | cons v vs ih =>
    refine (asUser_isSafeVolumePath v.1).bind fun safe => ?_
    refine AsUser.check (ih.bind ?_)
    rintro (_ | args) <;> exact asUser_pure _

theorem asUser_createContainer :
    AsUser user password (createContainer u rt data user password) := by
  refine asUser_withRef (AsUser.check ?_)
  split
  · exact asUser_pure _
  · exact asUser_pure _
  · refine (asUser_volumeArgsOf _).bind ?_
    rintro (_ | volumes)
    · exact asUser_pure _
    · dsimp only
      split
      · exact asUser_pure _
      · exact asUser_sudoAsUser _ _ _

theorem asUser_serviceStatus (rt : String) : AsUser user password (serviceStatus rt) := by
  refine AsUser.bind (asUser_runAgent_iff.2 fun _ => rfl) fun _ => ?_
  exact AsUser.bind (asUser_runAgent_iff.2 fun _ => rfl) fun _ => asUser_perform trivial

theorem follows_containerDispatch (hrt : rt ∈ runtimes) :
    Follows (strField data "_user") (strField data "password") (containerDispatch u rt data)
      (ReadsAsAgent u data) (WritesAsAgent data) := by
  have hlist {args : List String} (hconcerns : concerns (rt :: args) = true) (hno : NoNul args) :
      Follows (strField data "_user") (strField data "password")
        (listMerged (strField data "_user") (strField data "password") (rt :: args))
        (strField data "password" ≠ "") False :=
    .of_read ((asUser_listMerged_iff hrt hconcerns hno).trans not_not.symm)
  have hone (head : List String) {ref : String} (hhead : NoNul head)
      (h : isValidContainerRef u ref) : NoNul (head ++ [ref]) := (container_ok head hhead h).2
  unfold containerDispatch ReadsAsAgent WritesAsAgent
  dsimp only
  generalize strField data "action" = action
  split
  case h_1 => exact hlist (concerns_runtime hrt "ps" _) rfl
  case h_2 => exact hlist (concerns_runtime hrt "images" _) rfl
  case h_3 =>
    exact follows_inspect hrt (concerns_runtime hrt "inspect" _)
      (hone ["inspect", "--"] rfl)
  case h_4 => exact follows_owned hrt rfl (concerns_runtime hrt "start" _)
  case h_5 => exact follows_owned hrt rfl (concerns_runtime hrt "stop" _)
  case h_6 => exact follows_owned hrt rfl (concerns_runtime hrt "restart" _)
  case h_7 => exact follows_owned hrt rfl (concerns_runtime hrt "rm" _)
  case h_8 => exact follows_owned hrt rfl (concerns_runtime hrt "rmi" _)
  case h_9 => exact .of_asUser asUser_pullImage
  case h_10 => exact .of_asUser asUser_createContainer
  case h_11 =>
    refine follows_inspect hrt (concerns_runtime hrt "logs" _) (hone
      ["logs", "--tail", tailField data, "--timestamps", "--"] ?_)
    exact noNul_cons_iff.2 ⟨rfl, noNul_cons_iff.2 ⟨rfl, noNul_cons_iff.2
      ⟨hasNul_decimal _, rfl⟩⟩⟩
  case h_12 => exact .of_asUser (asUser_serviceStatus rt)
  case h_13 => exact .of_asUser asUser_sudoWrite
  case h_14 => exact .of_asUser asUser_sudoWrite
  case h_15 => exact .of_asUser asUser_sudoWrite
  case h_16 =>
    have hno : NoNul (["stats", "--no-stream"] ++ jsonFormat) := rfl
    refine .of_read ((asUser_readRuntime_iff hrt (concerns_runtime hrt "stats" _) hno).trans ?_)
    exact decide_eq_false_iff_not
  case h_17 => exact hlist (concerns_runtime hrt "volume" _) rfl
  case h_18 =>
    exact follows_inspect hrt (concerns_runtime hrt "volume" _)
      (hone ["volume", "inspect", "--"] rfl)
  case h_19 => exact follows_volumeCreate hrt
  case h_20 => exact follows_owned hrt rfl (concerns_runtime hrt "volume" _)
  case h_21 => exact follows_plain hrt rfl (concerns_runtime hrt "volume" _)
  case h_22 => exact hlist (concerns_runtime hrt "network" _) rfl
  case h_23 =>
    exact follows_inspect hrt (concerns_runtime hrt "network" _)
      (hone ["network", "inspect", "--"] rfl)
  case h_24 => exact follows_networkCreate hrt
  case h_25 => exact follows_networkMember hrt (by decide)
  case h_26 => exact follows_networkMember hrt (by decide)
  case h_27 => exact follows_owned hrt rfl (concerns_runtime hrt "network" _)
  case h_28 => exact follows_plain hrt rfl (concerns_runtime hrt "network" _)
  case h_29 => exact follows_plain hrt rfl (concerns_runtime hrt "container" _)
  case h_30 => exact follows_plain hrt rfl (concerns_runtime hrt "image" _)
  case h_31 => exact .of_asUser asUser_sudoWrite
  case h_32 =>
    refine follows_pure _ ?_
    split <;> simp_all

theorem asUser_succeeds (stdin : Option String) (h : concerns (stripSudo argv) = false) :
    AsUser user password (succeeds argv stdin) := by
  refine AsUser.bind (asUser_runAgent_iff.2 fun _ => h) ?_
  rintro (_ | out) <;> exact asUser_pure _

theorem asUser_detectRuntime : AsUser user password detectRuntime := by
  have hplain (sub : String) (args : List String) (hsub : sub ∈ ["info", "version", "--version"]) :
      AsUser user password (runtimes.findM? fun rt => succeeds (rt :: sub :: args) none) := by
    refine Prog.Only.findM? fun rt hrt => asUser_succeeds none ?_
    rw [stripSudo_runtime hrt, concerns_runtime hrt]
    exact decide_eq_false (not_not.2 hsub)
  refine AsUser.bind (hplain "info" _ (by decide)) ?_
  rintro (_ | rt)
  · exact hplain "--version" [] (by decide)
  · exact asUser_pure _

theorem asUser_elevatedRuntime (secret : String) :
    AsUser user password (elevatedRuntime secret) := by
  refine AsUser.check ?_
  refine Prog.Only.findM? fun rt hrt => asUser_succeeds _ ?_
  rw [stripSudo_agentSudo hrt]
  exact concerns_runtime hrt "info" _

theorem asUser_auditAction (data result : Value) :
    AsUser user password (auditAction data result) :=
  Prog.Only.ite (fun _ => asUser_perform trivial) fun _ => asUser_pure _

theorem asUser_containerOpen : AsUser user password containerOpen := by
  refine asUser_bind_iff.2 ⟨asUser_detectRuntime, ?_⟩
  rintro (_ | rt) hrt
  · exact asUser_perform trivial
  · refine AsUser.bind (asUser_runAgent_iff.2 fun _ => ?_) fun _ => asUser_serviceStatus rt
    rw [stripSudo_runtime (mem_of_returns_detectRuntime hrt),
      concerns_runtime (mem_of_returns_detectRuntime hrt)]
    rfl

theorem asUser_containerDispatch_iff (hrt : rt ∈ runtimes) :
    AsUser (strField data "_user") (strField data "password") (containerDispatch u rt data) ↔
      ¬ (ReadsAsAgent u data ∨ Mutates u data ∧ WritesAsAgent data) := by
  obtain ⟨hbroken, hkept, hwritten⟩ : Follows (strField data "_user") (strField data "password")
      (containerDispatch u rt data) (ReadsAsAgent u data) (WritesAsAgent data) :=
    follows_containerDispatch hrt
  by_cases hreads : ReadsAsAgent u data
  · exact iff_of_false (hbroken hreads) (not_not.2 (.inl hreads))
  · by_cases hwrites : WritesAsAgent data
    · rw [hwritten hwrites, quiet_containerDispatch_iff hrt]
      simp [hreads, hwrites]
    · exact iff_of_true (hkept hreads hwrites) fun h =>
        h.elim hreads fun hmutates => hwrites hmutates.2

theorem asUser_containerData_iff :
    AsUser (strField data "_user") (strField data "password") (containerData u data) ↔
      ¬ (ReadsAsAgent u data ∨ Mutates u data ∧ WritesAsAgent data) := by
  unfold containerData
  constructor
  · intro h
    obtain ⟨sudoRt, hsudo⟩ := Prog.exists_returns (elevatedRuntime (strField data "password"))
    have hdocker :=
      (asUser_bind_iff.1 ((asUser_bind_iff.1 h).2 _ returns_detectRuntime)).2 _ hsudo
    have hdispatch : AsUser _ _ (containerDispatch u "docker" data) := (asUser_bind_iff.1 hdocker).1
    exact (asUser_containerDispatch_iff (by decide)).1 hdispatch
  · intro h
    refine asUser_bind_iff.2 ⟨asUser_detectRuntime, fun userRt huser => ?_⟩
    refine asUser_bind_iff.2 ⟨asUser_elevatedRuntime _, fun sudoRt hsudo => ?_⟩
    split
    next => exact asUser_pure _
    next rt hrt =>
      have hmem := mem_of_returns_runtime huser hsudo hrt
      refine AsUser.bind ((asUser_containerDispatch_iff hmem).2 h) fun result => ?_
      exact (asUser_auditAction data result).bind fun _ => asUser_pure _

/-! ## The network handler -/

theorem asUser_detectFirewall : AsUser user password Look.detectFirewall.prog :=
  Look.only_findM? fun backend => asUser_which backend.command

theorem asUser_orDetected (backend : Option FirewallBackend) :
    AsUser user password (orDetected backend) :=
  asUser_detectFirewall.bind fun _ => asUser_pure _

theorem asUser_firewallSwitch (cmdFor : Option FirewallBackend → List String) (data : Value) :
    AsUser user password (firewallSwitch cmdFor data user password) :=
  (asUser_orDetected _).bind fun _ => asUser_sudoAsUser _ _ _

theorem asUser_ufwAddRule (rule : Value) :
    AsUser user password (ufwAddRule user password rule) := by
  unfold ufwAddRule
  dsimp only
  iterate 5 refine AsUser.check ?_
  exact Prog.Only.ite (fun _ => asUser_sudoAsUser _ _ _) fun _ => asUser_sudoAsUser _ _ _

theorem asUser_firewalldAddRule (rule : Value) :
    AsUser user password (firewalldAddRule user password rule) := by
  unfold firewalldAddRule
  dsimp only
  split
  · exact (asUser_sudoAsUser _ _ _).check
  · iterate 3 refine AsUser.check ?_
    exact asUser_sudoAsUser _ _ _

theorem asUser_tableAddRule (rule : Value) (backend : Option FirewallBackend) :
    AsUser user password (tableAddRule user password rule backend) := by
  unfold tableAddRule
  dsimp only
  iterate 3 refine AsUser.check ?_
  split
  · exact asUser_sudoAsUser _ _ _
  · exact asUser_sudoAsUser _ _ _
  · exact asUser_pure _

theorem asUser_addRuleTo (rule : Value) (backend : Option FirewallBackend) :
    AsUser user password (addRuleTo user password rule backend) := by
  unfold addRuleTo
  split
  · exact asUser_ufwAddRule rule
  · exact asUser_firewalldAddRule rule
  · exact asUser_tableAddRule rule _

theorem asUser_firewallAddRule (rule : Value) (target : Option FirewallBackend) :
    AsUser user password (firewallAddRule user password rule target) := by
  cases target with
  | some backend => exact asUser_addRuleTo rule _
  | none => exact asUser_detectFirewall.bind fun _ => asUser_addRuleTo rule _

theorem asUser_firewalldRemoveRule (rule : Value) :
    AsUser user password (firewalldRemoveRule user password rule) := by
  unfold firewalldRemoveRule
  dsimp only
  split
  · exact (asUser_sudoAsUser _ _ _).check
  · exact (asUser_sudoAsUser _ _ _).check

theorem asUser_removeRuleFrom (rule : Value) (backend : Option FirewallBackend) :
    AsUser user password (removeRuleFrom user password rule backend) := by
  unfold removeRuleFrom
  split
  · exact asUser_sudoAsUser _ _ _
  · exact asUser_pure _
  · exact asUser_firewalldRemoveRule rule
  · exact asUser_sudoAsUser _ _ _
  · exact asUser_pure _
  · exact asUser_sudoAsUser _ _ _
  · exact asUser_pure _
  · exact asUser_pure _

theorem asUser_firewallRemoveRule (rule : Value) (target : Option FirewallBackend) :
    AsUser user password (firewallRemoveRule user password rule target) := by
  cases target with
  | some backend => exact asUser_removeRuleFrom rule _
  | none => exact (asUser_orDetected _).bind fun _ => asUser_removeRuleFrom rule _

theorem asUser_addBridge (name : String) :
    AsUser user password (addBridge u user password name) := by
  refine AsUser.check ((asUser_which "nmcli").bind fun nmcli => ?_)
  refine Prog.Only.ite (fun _ => asUser_sudoAsUser _ _ _) fun _ => ?_
  refine (asUser_sudoAsUser _ _ _).bind fun res => ?_
  exact Prog.Only.ite (fun _ => asUser_sudoAsUser _ _ _) fun _ => asUser_pure _

theorem asUser_addVlan (parent : String) (vlanId : ℕ) :
    AsUser user password (addVlan u user password parent vlanId) := by
  refine AsUser.check (AsUser.check ((asUser_which "nmcli").bind fun nmcli => ?_))
  exact Prog.Only.ite (fun _ => asUser_sudoAsUser _ _ _) fun _ => asUser_sudoAsUser _ _ _

theorem asUser_removeInterface (name : String) :
    AsUser user password (removeInterface u user password name) := by
  refine AsUser.check ((asUser_which "nmcli").bind fun nmcli => ?_)
  refine Prog.Only.ite (fun _ => ?_) fun _ => asUser_sudoAsUser _ _ _
  exact (asUser_sudoAsUser _ _ _).bind fun res => (asUser_sudoAsUser _ _ _).check

theorem asUser_vpnList : AsUser user password vpnList := by
  refine (asUser_which "nmcli").bind fun nmcli => AsUser.check ?_
  exact AsUser.bind (asUser_runCmd_iff.2 fun _ => rfl) fun _ => asUser_perform trivial

theorem asUser_killProcess (pid : ℕ) (signal : String) :
    AsUser user password (killProcess user password pid signal) := by
  refine AsUser.check ((asUser_sudoAsUser _ _ _).bind fun res => ?_)
  exact AsUser.bind (asUser_perform trivial) fun _ => asUser_pure _

theorem asUser_ifaceSet (name state : String) :
    AsUser user password (ifaceSet u user password name state) :=
  (asUser_sudoAsUser _ _ _).check

theorem asUser_vpnSet (name verb : String) :
    AsUser user password (vpnSet u user password name verb) :=
  (asUser_sudoAsUser _ _ _).check

/-- The agent reads the journal itself. -/
theorem not_asUser_networkLogs (lines : ℕ) : ¬ AsUser user password (networkLogs lines) := by
  intro h
  obtain ⟨nmcli, hnmcli⟩ := Prog.exists_returns (which "nmcli")
  have hrest := (asUser_bind_iff.1 h).2 nmcli hnmcli
  have hjournal (unit : String) (hunit : Text.hasNul unit = false) :
      ¬ AsUser user password (runCmd ["journalctl", "-u", unit, "-n", decimal (min lines 500),
        "--no-pager", "--output=short-iso"]) := by
    intro hrun
    have hno : NoNul ["journalctl", "-u", unit, "-n", decimal (min lines 500), "--no-pager",
        "--output=short-iso"] := by
      simp only [noNul_cons_iff]
      exact ⟨rfl, rfl, hunit, rfl, hasNul_decimal _, rfl, rfl, rfl⟩
    have hconcerns := asUser_runCmd_iff.1 hrun hno
    cases hconcerns
  refine hjournal _ ?_ (asUser_bind_iff.1 hrest).1
  split_ifs <;> rfl

/-- The firewalls are asked by the agent itself, or by a `sudo` that it starts. -/
theorem not_asUser_sudoRunCmd (secret : String) (h : observes (stripSudo args) = true)
    (h' : observes (stripSudo ("sudo" :: "-S" :: args)) = true) (hno : NoNul args)
    (hplain : concerns (stripSudo args) = true)
    (hsudo : concerns (stripSudo ("sudo" :: "-S" :: args)) = true) :
    ¬ AsUser user password (Look.sudoRunCmd secret args h h').prog := by
  unfold Look.sudoRunCmd
  split_ifs
  · intro hrun
    have hconcerns := asUser_runCmd_iff.1 (asUser_bind_iff.1 hrun).1 hno
    rw [hplain] at hconcerns
    cases hconcerns
  · intro hrun
    have hno' : NoNul ("sudo" :: "-S" :: args) :=
      noNul_cons_iff.2 ⟨rfl, noNul_cons_iff.2 ⟨rfl, hno⟩⟩
    have hconcerns := asUser_runAgent_iff.1 (asUser_bind_iff.1 hrun).1 hno'
    rw [hsudo] at hconcerns
    cases hconcerns

theorem not_asUser_firewallStatusSingle (secret : String) (backend : FirewallBackend) :
    ¬ AsUser user password (Look.firewallStatusSingle secret backend).prog := by
  cases backend with
  | ufw => exact not_asUser_sudoRunCmd secret rfl rfl rfl rfl rfl
  | firewalld =>
    intro h
    have hconcerns := asUser_runCmd_iff.1 (asUser_bind_iff.1 h).1 rfl
    cases hconcerns
  | nftables => exact not_asUser_sudoRunCmd secret rfl rfl rfl rfl rfl
  | iptables => exact not_asUser_sudoRunCmd secret rfl rfl rfl rfl rfl

theorem not_asUser_firewallRulesFor (secret : String) (backend : FirewallBackend) :
    ¬ AsUser user password (Look.firewallRulesFor secret backend).prog := by
  cases backend with
  | ufw => exact not_asUser_sudoRunCmd secret rfl rfl rfl rfl rfl
  | firewalld =>
    intro h
    have hconcerns := asUser_runCmd_iff.1 (asUser_bind_iff.1 h).1 rfl
    cases hconcerns
  | nftables => exact not_asUser_sudoRunCmd secret rfl rfl rfl rfl rfl
  | iptables => exact not_asUser_sudoRunCmd secret rfl rfl rfl rfl rfl

/-- On a host that has all of them. -/
theorem returns_detectAllFirewalls :
    Look.detectAllFirewalls.prog.Returns FirewallBackend.all := by
  have hwhich (backend : FirewallBackend) : (which backend.command).Returns true := by
    refine (Prog.returns_bind _ _ _).2 ⟨.ok ⟨true, "", "", false⟩, returns_run ?_ _, rfl⟩
    cases backend <;> rfl
  refine (Prog.returns_bind _ _ _).2 ⟨FirewallBackend.all.reverse, ?_, rfl⟩
  refine (Prog.returns_bind _ _ _).2 ⟨true, hwhich .ufw, ?_⟩
  refine (Prog.returns_bind _ _ _).2 ⟨true, hwhich .firewalld, ?_⟩
  refine (Prog.returns_bind _ _ _).2 ⟨true, hwhich .nftables, ?_⟩
  exact (Prog.returns_bind _ _ _).2 ⟨true, hwhich .iptables, rfl⟩

theorem not_asUser_firewallStatusAll (secret : String) :
    ¬ AsUser user password (Look.firewallStatusAll secret).prog := by
  intro h
  have hall := (asUser_bind_iff.1 h).2 _ returns_detectAllFirewalls
  obtain ⟨primary, hprimary⟩ := Prog.exists_returns Look.detectFirewall.prog
  have hloop := (asUser_bind_iff.1 ((asUser_bind_iff.1 hall).2 primary hprimary)).1
  exact not_asUser_firewallStatusSingle secret .ufw (asUser_bind_iff.1 hloop).1

theorem not_asUser_firewallRulesAll (secret : String) :
    ¬ AsUser user password (Look.firewallRulesAll secret).prog := by
  intro h
  have hall := (asUser_bind_iff.1 h).2 _ returns_detectAllFirewalls
  exact not_asUser_firewallRulesFor secret .ufw (asUser_bind_iff.1 (asUser_bind_iff.1 hall).1).1

theorem asUser_detectIfaceType (name : String) :
    AsUser user password (Look.detectIfaceType name).prog := by
  refine Look.only_bind (asUser_perform trivial) fun bridge => ?_
  split
  · exact asUser_pure _
  split
  · exact asUser_pure _
  refine Look.only_bind (asUser_perform trivial) fun wireless => ?_
  split
  · exact asUser_pure _
  · exact Look.only_bind (asUser_perform trivial) fun _ => asUser_pure _

theorem asUser_succeeded (h : observes (stripSudo argv) = true)
    (hconcerns : concerns (stripSudo argv) = false) :
    AsUser user password (Look.succeeded argv h).prog := by
  have hrun : AsUser user password (run none argv none) :=
    asUser_runAgent_iff.2 fun _ => hconcerns
  refine Look.only_bind hrun ?_
  rintro (_ | out) <;> exact asUser_pure _

theorem asUser_listInterfacesDetailed :
    AsUser user password Look.listInterfacesDetailed.prog := by
  refine Look.only_bind (asUser_succeeded _ rfl) fun shown => ?_
  dsimp only
  split
  · refine Look.only_bind (asUser_perform trivial) fun names => ?_
    refine Look.only_bind (Look.only_forIn fun name _ => ?_) fun _ => asUser_perform trivial
    split
    · exact Look.only_bind (asUser_detectIfaceType name) fun _ => asUser_pure _
    · exact asUser_pure _
  · exact asUser_perform trivial

theorem asUser_brokered (hhead : args.head? ≠ some "sudo") :
    AsUser user password (brokered u user password args) := by
  refine Prog.Only.ite (fun _ => ?_) fun _ => Prog.Only.ite (fun _ => ?_) fun _ => asUser_pure _
  · exact (asUser_sudoAsUser _ _ _).bind fun _ => asUser_pure _
  · refine (asUser_runCmdAsUser user password hhead).bind ?_
    rintro (_ | out | _) <;> exact asUser_pure _

theorem asUser_listPorts : AsUser user password (Look.listPorts u user password).prog := by
  refine Look.only_bind (asUser_which "ss") fun ss => ?_
  split
  · exact asUser_pure _
  split
  · exact asUser_pure _
  · exact Look.only_bind (asUser_brokered (by decide)) fun _ => asUser_perform trivial

theorem asUser_networkDispatch_iff :
    AsUser (strField data "_user") (strField data "password") (networkDispatch u data) ↔
      strField data "action" ≠ "network_logs" := by
  unfold networkDispatch
  dsimp only
  generalize strField data "action" = action
  split
  case h_1 => exact iff_of_true (asUser_firewallSwitch _ data) (by decide)
  case h_2 => exact iff_of_true (asUser_firewallSwitch _ data) (by decide)
  case h_3 => exact iff_of_true (asUser_firewallAddRule _ _) (by decide)
  case h_4 => exact iff_of_true (asUser_firewallRemoveRule _ _) (by decide)
  case h_5 => exact iff_of_true (asUser_addBridge _) (by decide)
  case h_6 => exact iff_of_true (asUser_addVlan _ _) (by decide)
  case h_7 => exact iff_of_true (asUser_removeInterface _) (by decide)
  case h_8 => exact iff_of_true (asUser_ifaceSet _ _) (by decide)
  case h_9 => exact iff_of_true (asUser_ifaceSet _ _) (by decide)
  case h_10 => exact iff_of_true asUser_vpnList (by decide)
  case h_11 => exact iff_of_true (asUser_vpnSet _ _) (by decide)
  case h_12 => exact iff_of_true (asUser_vpnSet _ _) (by decide)
  case h_13 => exact iff_of_false (not_asUser_networkLogs _) (not_not.2 rfl)
  case h_14 => exact iff_of_true (asUser_killProcess _ _) (by decide)
  case h_15 hlogs _ => exact iff_of_true (asUser_pure _) hlogs

theorem asUser_auditNetwork (data result : Value) :
    AsUser user password (auditNetwork data result) :=
  Prog.Only.ite (fun _ => asUser_perform trivial) fun _ => asUser_pure _

theorem asUser_networkingManage_iff :
    AsUser (strField data "_user") (strField data "password")
        (networkingManage u (networkDispatch u data) data) ↔
      ¬ (strField data "action" ∈ ["firewall_status", "firewall_rules"] ∨
        strField data "action" = "network_logs" ∧ isAdmin data) := by
  have hdispatch : AsUser (strField data "_user") (strField data "password")
      (networkDispatch u data) ↔ strField data "action" ≠ "network_logs" :=
    asUser_networkDispatch_iff
  unfold networkingManage
  dsimp only
  generalize strField data "action" = action at hdispatch ⊢
  split
  case h_1 => exact iff_of_true asUser_listInterfacesDetailed (by simp)
  case h_2 => exact iff_of_false (not_asUser_firewallStatusAll _) (not_not.2 (.inl (by decide)))
  case h_3 => exact iff_of_false (not_asUser_firewallRulesAll _) (not_not.2 (.inl (by decide)))
  case h_4 => exact iff_of_true asUser_listPorts (by simp)
  case h_5 _ hstatus hrules _ =>
    have hother : action ∉ ["firewall_status", "firewall_rules"] := by
      simp only [List.mem_cons, List.not_mem_nil, or_false, not_or]
      exact ⟨hstatus, hrules⟩
    unfold gated requireAdmin
    by_cases hadmin : isAdmin data
    · rw [if_pos hadmin]
      refine hdispatch.trans ?_
      simp only [hother, hadmin, false_or, and_true]
    · rw [if_neg hadmin]
      exact iff_of_true (asUser_pure _) fun h => h.elim hother fun hlogs => hadmin hlogs.2

theorem asUser_networkData_iff :
    AsUser (strField data "_user") (strField data "password") (networkData u data) ↔
      ¬ (strField data "action" ∈ ["firewall_status", "firewall_rules"] ∨
        strField data "action" = "network_logs" ∧ isAdmin data) := by
  unfold networkData
  dsimp only
  split
  next err herr =>
    have hclosed : strField data "action" ∉ openNetworkActions := fun hopen => by
      rw [if_pos hopen] at herr
      cases herr
    have hadmin : ¬ isAdmin data := fun hadmin => by
      rw [if_neg hclosed, requireAdmin, if_pos hadmin] at herr
      cases herr
    refine iff_of_true (asUser_pure _) ?_
    rintro (hfirewall | ⟨-, hadmin'⟩)
    -- the two actions on firewalls are open to every role
    · have hopen : ["firewall_status", "firewall_rules"] ⊆ openNetworkActions := by decide
      exact hclosed (hopen hfirewall)
    · exact hadmin hadmin'
  next =>
    rw [asUser_bind_iff, asUser_networkingManage_iff, and_iff_left]
    intro result _
    exact (asUser_auditNetwork data result).bind fun _ => asUser_pure _

end

/-- A request's commands run as its user, or through `sudo` as that user, iff the request makes
neither the agent itself nor a `sudo` of the agent run one. -/
theorem mediated_iff (u : Text.Alphanumeric) (r : Request) :
    Mediated r.user r.password (r.serve u) ↔ ¬ r.ByAgent u := by
  rw [mediated_iff_asUser]
  cases r with
  | containerOpen => exact iff_of_true asUser_containerOpen not_false
  | container data => exact asUser_containerData_iff
  | network data => exact asUser_networkData_iff

/-- Requests of bob: without a password, with a wrong one, and as an administrator. -/
def unbrokered : List Request :=
  let ask (fields : List (String × String)) : Value :=
    .object (("_user", .string "bob") :: fields.map fun field => (field.1, .string field.2))
  [.container (ask [("action", "volume_prune"), ("_role", "readonly")]),
    .container (ask [("action", "stop"), ("id", "web"), ("owner", "user"), ("_role", "readonly")]),
    .container (ask [("action", "list_containers"), ("password", "wrong")]),
    .network (ask [("action", "firewall_status"), ("_role", "readonly")]),
    .network (ask [("action", "network_logs"), ("_role", "admin")])]

theorem not_mediated_of_asks {user password : String} {p : HostM Value} (argv : List String)
    (stdin : Option String) (h : p.Asks (.run ⟨none, argv, stdin⟩))
    (hconcerns : concerns (stripSudo argv) = true) :
    ¬ Mediated user password p ∧ ¬ p.Only fun o => ¬ o.ReachesRoot fun _ _ => false := by
  constructor
  · intro hmediated
    have hrunAs := (hmediated.1 _ h hconcerns).1
    cases hrunAs
  · intro honly
    exact honly _ h ⟨hconcerns, .inl rfl⟩

/-- They reach what belongs to the root, though `sudo` accepts no password at all. -/
theorem not_mediated : unbrokered.Forall fun r =>
    ¬ Mediated r.user r.password (r.serve Text.asciiAlphanumeric) ∧
      ¬ (r.serve Text.asciiAlphanumeric).Only fun o => ¬ o.ReachesRoot fun _ _ => false := by
  let out : Except String Output := .ok ⟨true, "", "", false⟩
  simp only [unbrokered, List.Forall]
  refine ⟨?prune, ?stop, ?list, ?firewall, ?logs⟩
  case prune =>
    exact not_mediated_of_asks ["docker", "volume", "prune", "-f"] none
      (.inr ⟨out, .inl rfl⟩) rfl
  case stop =>
    exact not_mediated_of_asks ["docker", "stop", "--", "web"] none (.inr ⟨out, .inl rfl⟩) rfl
  case list =>
    -- `sudo` finds the runtime, and bob is unknown to the host
    exact not_mediated_of_asks
      (["sudo", "-S", "docker", "ps", "-a"] ++ jsonFormat ++ ["--no-trunc"]) (some "wrong\n")
      (.inr ⟨out, .inr ⟨out, .inr ⟨none, .inl rfl⟩⟩⟩) rfl
  case firewall =>
    exact not_mediated_of_asks ["ufw", "status"] none
      (.inr ⟨out, .inr ⟨out, .inr ⟨out, .inr ⟨out, .inr ⟨out, .inl rfl⟩⟩⟩⟩⟩) rfl
  case logs =>
    exact not_mediated_of_asks ["journalctl", "-u", "NetworkManager", "-n", "100", "--no-pager",
      "--output=short-iso"] none (.inr ⟨out, .inl rfl⟩) rfl

end Tenodera.Agent.Host

import Tenodera.Agent.ContainerEffects
import Tenodera.Agent.FileOps
import Tenodera.Agent.Kdump
import Tenodera.Agent.Managers
import Tenodera.Agent.Router
import Tenodera.Agent.TerminalEffects

/-!
# What the role of a request holds back

The handlers of an agent, with the program of each of their calls.  The check of the role is
repeated in every handler, and `quiet_effects_iff` says exactly which calls without the role of an
administrator still change the state of a host.
-/

namespace Tenodera.Agent.Host

open Protocol Effect Path

/-! ## The handlers -/

/-- The handlers that `register_defaults` registers, in its order. -/
inductive Handler
  | systemInfo
  | auditQuery
  | systemPubkey
  | hostConfig
  | hostAction
  | systemSettings
  | chrony
  | timeSync
  | systemdUnits
  | systemdManage
  | fileList
  | fileRead
  | fileWrite
  | fileDelete
  | fileMkdir
  | journalQuery
  | terminalPty
  | diskUsage
  | networkStats
  | containers
  | storageStream
  | storageManage
  | storageDu
  | sshManage
  | superuserVerify
  | networkStream
  | networkManage
  | packages
  | securityStatus
  | securityManage
  | hardwareInfo
  | topProcesses
  | hostsManage
  | kdumpInfo
  | logFiles
  | usersManage
  | metricsSnapshot
  | networkingSnapshot
  | storageSnapshot
  | cronList
  | cronManage
  | systemdTimers
  | dnsInfo
  | dnsManage
  | dnsLookup
  | dnsResolvedInfo
  | dnsResolvedManage
  | certsList
  | certsManage
  | certsSelfSigned
  | certsLetsEncrypt
  deriving DecidableEq, Repr

namespace Handler

/-- `payload_type`. -/
def payloadType : Handler → String
  | systemInfo => "system.info"
  | auditQuery => "audit.query"
  | systemPubkey => "system.pubkey"
  | hostConfig => "host.config"
  | hostAction => "host.action"
  | systemSettings => "system.settings"
  | chrony => "chrony.manage"
  | timeSync => "timesync.manage"
  | systemdUnits => "systemd.units"
  | systemdManage => "systemd.manage"
  | fileList => "file.list"
  | fileRead => "file.read"
  | fileWrite => "file.write"
  | fileDelete => "file.delete"
  | fileMkdir => "file.mkdir"
  | journalQuery => "journal.query"
  | terminalPty => "terminal.pty"
  | diskUsage => "disk.usage"
  | networkStats => "network.stats"
  | containers => "container.manage"
  | storageStream => "storage.stream"
  | storageManage => "storage.manage"
  | storageDu => "storage.du"
  | sshManage => "ssh.manage"
  | superuserVerify => "superuser.verify"
  | networkStream => "networking.stream"
  | networkManage => "networking.manage"
  | packages => "packages.manage"
  | securityStatus => "security.status"
  | securityManage => "security.manage"
  | hardwareInfo => "hardware.info"
  | topProcesses => "top.processes"
  | hostsManage => "hosts.manage"
  | kdumpInfo => "kdump.info"
  | logFiles => "log.files"
  | usersManage => "users.manage"
  | metricsSnapshot => "metrics.snapshot"
  | networkingSnapshot => "networking.snapshot"
  | storageSnapshot => "storage.snapshot"
  | cronList => "cron.list"
  | cronManage => "cron.manage"
  | systemdTimers => "systemd.timers"
  | dnsInfo => "dns.info"
  | dnsManage => "dns.manage"
  | dnsLookup => "dns.lookup"
  | dnsResolvedInfo => "dns.resolved.info"
  | dnsResolvedManage => "dns.resolved.manage"
  | certsList => "certs.list"
  | certsManage => "certs.manage"
  | certsSelfSigned => "certs.selfsigned"
  | certsLetsEncrypt => "certs.letsencrypt"

def registered : List Handler :=
  [systemInfo, auditQuery, systemPubkey, hostConfig, hostAction, systemSettings, chrony, timeSync,
    systemdUnits, systemdManage, fileList, fileRead, fileWrite, fileDelete, fileMkdir, journalQuery,
    terminalPty, diskUsage, networkStats, containers, storageStream, storageManage, storageDu,
    sshManage, superuserVerify, networkStream, networkManage, packages, securityStatus,
    securityManage, hardwareInfo, topProcesses, hostsManage, kdumpInfo, logFiles, usersManage,
    metricsSnapshot, networkingSnapshot, storageSnapshot, cronList, cronManage, systemdTimers,
    dnsInfo, dnsManage, dnsLookup, dnsResolvedInfo, dnsResolvedManage, certsList, certsManage,
    certsSelfSigned, certsLetsEncrypt]

/-- The handler registered for a payload; a later registration replaces an earlier one. -/
def byPayload (payload : String) : Option Handler :=
  registered.reverse.find? fun h => h.payloadType = payload

theorem mem_registered (h : Handler) : h ∈ registered := by
  cases h <;> decide

theorem nodup_payloadType : (registered.map payloadType).Nodup := by
  decide

/-- No registration replaces another: every handler is reached by its payload. -/
theorem byPayload_payloadType (h : Handler) : byPayload h.payloadType = some h := by
  have hmem : h ∈ registered.reverse := List.mem_reverse.2 (mem_registered h)
  have hsome : (registered.reverse.find? fun h' => h'.payloadType = h.payloadType).isSome :=
    List.find?_isSome.2 ⟨h, hmem, decide_eq_true rfl⟩
  obtain ⟨h', hfind⟩ := Option.isSome_iff_exists.1 hsome
  have hpayload : h'.payloadType = h.payloadType := by simpa using List.find?_some hfind
  have heq : h' = h :=
    List.inj_on_of_nodup_map nodup_payloadType (mem_registered h') (mem_registered h) hpayload
  rw [byPayload, hfind, heq]

end Handler

/-! ## The programs of the calls -/

/-- A call that is answered without a look at the host. -/
def ready : HostM Value := pure .null

variable (u : Text.Alphanumeric) (privileged : Handler → Value → HostM Value)

/-- The `open` of a handler; `privileged` is what it does for an administrator. -/
def openHandler (options : Value) (handler : Handler) : HostM Value :=
  let act := privileged handler options
  match handler with
  | .systemInfo => Look.systemInfo.prog
  | .auditQuery => gated options act
  | .systemPubkey => Look.systemPubkey.prog
  | .hostConfig => Look.hostConfig.prog
  | .hostAction => gated options act
  | .systemSettings => systemSettings act options
  | .chrony => chronyManage act options
  | .timeSync => timesyncManage act options
  | .systemdUnits => Look.listUnits.prog
  | .systemdManage => ready
  | .fileList => fileList u options
  | .fileRead => fileRead u options
  | .fileWrite => fileWrite u options
  | .fileDelete => fileDelete u options
  | .fileMkdir => fileMkdir u options
  | .journalQuery => (Look.journalQuery u options).prog
  | .terminalPty => ready
  | .diskUsage => Look.diskUsage.prog
  | .networkStats => Look.networkStats.prog
  | .containers => containerOpen
  | .storageStream => ready
  | .storageManage => storageManage act options
  | .storageDu => ready
  | .sshManage => sshManage act options
  | .superuserVerify => (Look.superuserVerify options).prog
  | .networkStream => ready
  | .networkManage => ready
  | .packages => ready
  | .securityStatus => (Look.securityStatus options).prog
  | .securityManage => gated options act
  | .hardwareInfo => Look.hardwareInfo.prog
  | .topProcesses => (Look.topProcesses u options).prog
  | .hostsManage => ready
  | .kdumpInfo => kdumpInfo u act options
  | .logFiles => ready
  | .usersManage => ready
  | .metricsSnapshot => Look.metricsSnapshot.prog
  | .networkingSnapshot => Look.networkingSnapshot.prog
  | .storageSnapshot => Look.storageSnapshot.prog
  | .cronList => (Look.cronList u options).prog
  | .cronManage => gated options act
  | .systemdTimers => Look.listTimers.prog
  | .dnsInfo => Look.dnsInfo.prog
  | .dnsManage => gated options act
  | .dnsLookup => (Look.dnsLookup options).prog
  | .dnsResolvedInfo => Look.dnsResolvedInfo.prog
  | .dnsResolvedManage => gated options act
  | .certsList => certsList u act options
  | .certsManage => ready
  | .certsSelfSigned => ready
  | .certsLetsEncrypt => Look.letsencryptInfo.prog

/-- The `data` of a handler; the input of a terminal goes to a process that runs already. -/
def dataHandler (data : Value) (handler : Handler) : HostM Value :=
  let act := privileged handler data
  match handler with
  | .systemdManage => systemdManage u act data
  | .containers => containerData u data
  | .networkManage => networkingManage u act data
  | .packages => packagesManage u act data
  | .hostsManage => hostsManage u act data
  | .logFiles => (Look.logFiles u data).prog
  | .usersManage => usersManage act data
  | .certsManage | .certsSelfSigned | .certsLetsEncrypt => gated data act
  | _ => ready

/-- The `stream` of a handler. -/
def streamHandler (channel : ChannelId) (options : ChannelOpenOptions) : Handler → HostM Unit
  | .terminalPty => terminalPty u channel options
  | .storageStream => Look.storageStream.prog
  | .storageDu => do
    let _ ← (Look.storageDu options.toValue).prog
  | .networkStream => Look.networkingStream.prog
  | _ => pure ()

/-- What a call does to the host. -/
def effects : Call Handler → HostM Unit
  | .stream handler channel options => streamHandler u channel options handler
  | .open_ handler _ options => do
    let _ ← openHandler u privileged options.toValue handler
  | .data handler _ data => do
    let _ ← dataHandler u privileged data handler

/-- The object in which the handler of a call looks for the role. -/
def requestOf : Call Handler → Value
  | .stream _ _ options | .open_ _ _ options => options.toValue
  | .data _ _ data => data

/-! ## The calls that change the host -/

/-- An `open` passes the checks of a handler that writes without a look at the role. -/
def OpenWrites (options : Value) : Handler → Prop
  | .fileWrite | .fileMkdir => MayCreate u options
  | .fileDelete => MayDelete u options
  | .kdumpInfo => FindWrites u options
  | _ => False

/-- The call passes the checks of a handler that writes without a look at the role. -/
def Writes : Call Handler → Prop
  | .stream .terminalPty _ options => OpensSession options
  | .stream _ _ _ => False
  | .open_ handler _ options => OpenWrites u options.toValue handler
  | .data .containers _ data => Mutates u data
  | .data _ _ _ => False

section

variable {u : Text.Alphanumeric} {privileged : Handler → Value → HostM Value}

theorem quiet_seq_unit_iff {α : Type} {p : HostM α} :
    (Quiet do let _ ← p; pure ()) ↔ Quiet p := by
  rw [quiet_bind_iff, and_iff_left fun _ _ => quiet_pure _]

theorem quiet_ready : Quiet ready := quiet_pure _

theorem quiet_openHandler_iff {options : Value} (h : isAdmin options = false) (handler : Handler) :
    Quiet (openHandler u privileged options handler) ↔ ¬ OpenWrites u options handler := by
  have hread {p : HostM Value} (hp : Quiet p) : Quiet p ↔ ¬ False := iff_of_true hp not_false
  cases handler with
  | fileWrite => exact quiet_fileWrite_iff options
  | fileMkdir => exact quiet_fileMkdir_iff options
  | fileDelete => exact quiet_fileDelete_iff options
  | kdumpInfo => exact quiet_kdumpInfo_iff h
  | systemSettings => exact hread (quiet_systemSettings h)
  | chrony => exact hread (quiet_chronyManage h)
  | timeSync => exact hread (quiet_timesyncManage h)
  | fileList => exact hread (quiet_fileList options)
  | fileRead => exact hread (quiet_fileRead options)
  | containers => exact hread quiet_containerOpen
  | storageManage => exact hread (quiet_storageManage h)
  | sshManage => exact hread (quiet_sshManage h)
  | certsList => exact hread (quiet_certsList h)
  | auditQuery | hostAction | securityManage | cronManage | dnsManage | dnsResolvedManage =>
    exact hread (quiet_gated h)
  | systemdManage | terminalPty | storageStream | storageDu | networkStream | networkManage
  | packages | hostsManage | logFiles | usersManage | certsManage | certsSelfSigned =>
    exact hread quiet_ready
  | _ => exact hread (Look.quiet _)

theorem quiet_dataHandler {data : Value} (h : isAdmin data = false) {handler : Handler}
    (hne : handler ≠ .containers) : Quiet (dataHandler u privileged data handler) := by
  cases handler with
  | containers => exact absurd rfl hne
  | systemdManage => exact quiet_systemdManage h
  | networkManage => exact quiet_networkingManage h
  | packages => exact quiet_packagesManage h
  | hostsManage => exact quiet_hostsManage h
  | logFiles => exact (Look.logFiles u data).quiet
  | usersManage => exact quiet_usersManage h
  | certsManage | certsSelfSigned | certsLetsEncrypt => exact quiet_gated h
  | _ => exact quiet_ready

theorem quiet_streamHandler {channel : ChannelId} {options : ChannelOpenOptions}
    {handler : Handler} (hne : handler ≠ .terminalPty) :
    Quiet (streamHandler u channel options handler) := by
  cases handler with
  | terminalPty => exact absurd rfl hne
  | storageStream => exact Look.storageStream.quiet
  | storageDu => exact quiet_seq_unit_iff.2 (Look.quiet _)
  | networkStream => exact Look.networkingStream.quiet
  | _ => exact quiet_pure _

/-- Without the role of an administrator a call is quiet unless it passes the checks of a handler
that writes without a look at the role. -/
theorem quiet_effects_iff {call : Call Handler} (h : isAdmin (requestOf call) = false) :
    Quiet (effects u privileged call) ↔ ¬ Writes u call := by
  cases call with
  | stream handler channel options =>
    by_cases hterminal : handler = .terminalPty
    · subst hterminal
      exact quiet_terminalPty_iff
    · have hwrites : ¬ Writes u (.stream handler channel options) := by
        cases handler <;> first | exact absurd rfl hterminal | exact not_false
      exact iff_of_true (quiet_streamHandler hterminal) hwrites
  | open_ handler channel options =>
    exact quiet_seq_unit_iff.trans (quiet_openHandler_iff h handler)
  | data handler channel data =>
    refine quiet_seq_unit_iff.trans ?_
    by_cases hcontainers : handler = .containers
    · subst hcontainers
      exact quiet_containerData_iff
    · have hwrites : ¬ Writes u (.data handler channel data) := by
        cases handler <;> first | exact absurd rfl hcontainers | exact not_false
      exact iff_of_true (quiet_dataHandler h hcontainers) hwrites

end

/-- A call without the role of an administrator executes no operation that changes the state of the
host, in any of its runs, exactly when it does not pass the checks of a handler that writes without
a look at the role. -/
theorem readonly_observes_iff (call : Call Handler) (h : isAdmin (requestOf call) = false) :
    (∀ ops result, (effects u privileged call).Runs ops result →
      ∀ o ∈ ops, o.changesState = false) ↔ ¬ Writes u call := by
  rw [← Prog.only_iff_runs]
  exact quiet_effects_iff h

/-- An action of `container.manage` that bob asks for, with the role that the gateway gives to
readers. -/
def bobAsks (action : String) : Call Handler :=
  .data .containers "c1" (.object [("action", .string action), ("_user", .string "bob"),
    ("_role", .string "readonly")])

theorem readonly_observes_listContainers :
    ¬ Writes Text.asciiAlphanumeric (bobAsks "list_containers") ∧
      ∀ ops result,
        (effects Text.asciiAlphanumeric (fun _ _ => ready) (bobAsks "list_containers")).Runs
          ops result → ∀ o ∈ ops, o.changesState = false :=
  ⟨not_false, (readonly_observes_iff _ _ (bobAsks "list_containers") rfl).2 not_false⟩

/-- The agent itself removes the volumes: neither the role nor the rules of `sudo` are asked. -/
theorem runs_bobPrunes :
    (effects Text.asciiAlphanumeric (fun _ _ => ready) (bobAsks "volume_prune")).Runs
      [.run ⟨none, "docker" :: infoArgs, none⟩,
        .run ⟨none, ["docker", "volume", "prune", "-f"], none⟩,
        .audit "bob" "container.volume_prune" "" true ""] () := by
  let out : Except String Output := .ok ⟨true, "", "", false⟩
  exact ⟨out, _, rfl, out, _, rfl, (), _, rfl, rfl, rfl⟩

theorem not_readonly_observes :
    ¬ ∀ (u : Text.Alphanumeric) (privileged : Handler → Value → HostM Value) (call : Call Handler),
      isAdmin (requestOf call) = false → ∀ ops result,
        (effects u privileged call).Runs ops result → ∀ o ∈ ops, o.changesState = false := by
  intro h
  have hquiet := h Text.asciiAlphanumeric (fun _ _ => ready) (bobAsks "volume_prune") rfl _ _
    runs_bobPrunes
  have hprune := hquiet _ (List.mem_cons_of_mem _ List.mem_cons_self)
  exact absurd hprune (by decide)

end Tenodera.Agent.Host

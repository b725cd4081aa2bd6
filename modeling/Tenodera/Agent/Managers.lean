import Tenodera.Agent.Monitors

/-!
# The handlers that look without a role and write with one

Each of them serves some actions to every user, in `Look`, and puts the others behind
`require_admin`.  What an administrator can do there is the parameter `act`.
-/

namespace Tenodera.Agent.Host

open Protocol Effect Path

/-! ## Time and settings -/

namespace Look

/-- `active_unit`. -/
def activeUnit (candidates : List String) : Look (Option String) :=
  candidates.findM? fun unit => do
    return Text.trim (← runCmd ["systemctl", "is-active", unit]) = "active"

/-- `chrony_conf_path`. -/
def chronyConfPath : Look (Option String) :=
  ["/etc/chrony/chrony.conf", "/etc/chrony.conf"].findM? pathExists

/-- The units of `ntp_source`, with the names under which they are reported. -/
def ntpCandidates : List (String × String) :=
  [("systemd-timesyncd", "systemd-timesyncd"), ("chronyd", "chrony"), ("chrony", "chrony"),
    ("ntpsec", "ntpsec"), ("ntpd", "ntpd"), ("ntp", "ntpd"), ("openntpd", "openntpd"),
    ("ptp4l", "ptp4l"), ("phc2sys", "phc2sys")]

/-- `ntp_source`. -/
def ntpSource : Look String := do
  let unit := (← activeUnit (ntpCandidates.map Prod.fst)).getD ""
  let service := (ntpCandidates.lookup unit).getD ""
  if service = "systemd-timesyncd" then
    let _ ← runCmd ["timedatectl", "show-timesync"]
  return service

/-- `reboot_required`. -/
def rebootRequired : Look Unit := do
  let run' ← pathExists "/run/reboot-required"
  let varRun ← if run' then pure true else pathExists "/var/run/reboot-required"
  if varRun then
    if (← readFile "/run/reboot-required.pkgs").isNone then
      let _ ← readFile "/var/run/reboot-required.pkgs"
  else if ← which "needs-restarting" then
    let _ ← run ["needs-restarting", "-r"]

/-- `read_settings`. -/
def readSettings : Look Value := do
  let _ ← runCmd ["timedatectl", "show"]
  let _ ← runCmd ["date", "+%Y-%m-%d %H:%M:%S %Z"]
  let _ ← runCmd ["date", "-u", "+%Y-%m-%d %H:%M:%S"]
  let service ← ntpSource
  if service = "systemd-timesyncd" then
    let _ ← runCmd ["timedatectl", "show-timesync"]
  else if service = "chrony" then
    if let some path ← chronyConfPath then
      let _ ← readFile path
  rebootRequired
  let _ ← runCmd ["hostnamectl", "status"]
  if ← verdict then
    let _ ← runCmd ["hostnamectl", "--static"]
  let _ ← runCmd ["hostname"]
  let _ ← runCmd ["localectl", "status"]
  let _ ← runCmd ["timedatectl", "list-timezones"]
  let _ ← runCmd ["localectl", "list-locales"]
  let _ ← runCmd ["localectl", "list-keymaps"]
  let _ ← runCmd ["localectl", "list-x11-keymap-layouts"]
  answer

/-- `read_all` of chrony. -/
def readChrony : Look Value := do
  let hasChronyc ← which "chronyc"
  let path ← chronyConfPath
  if ¬ hasChronyc ∧ path.isNone then return .object [("available", .bool false)]
  else
    let _ ← runCmd ["chronyc", "tracking"]
    let _ ← runCmd ["chronyc", "activity"]
    let _ ← runCmd ["chronyc", "sources"]
    readFiles path.toList
    answer

/-- `StatusKind`; the command of a daemon only looks. -/
inductive StatusKind
  | cmd (args : List String) (observed : observes (stripSudo args) = true := by rfl)
  | journal

/-- What `Spec` says about the state of a daemon. -/
structure Spec where
  units : List String
  statusKind : StatusKind
  configPaths : List String

/-- `Spec::for_daemon`. -/
def Spec.forDaemon : String → Option Spec
  | "systemd-timesyncd" => some
    ⟨["systemd-timesyncd"], .cmd ["timedatectl", "timesync-status"],
      ["/etc/systemd/timesyncd.conf"]⟩
  | "ntpd" => some ⟨["ntp", "ntpd"], .cmd ["ntpq", "-pn"], ["/etc/ntp.conf"]⟩
  | "ntpsec" => some
    ⟨["ntpsec", "ntp"], .cmd ["ntpq", "-pn"], ["/etc/ntpsec/ntp.conf", "/etc/ntp.conf"]⟩
  | "openntpd" => some
    ⟨["openntpd"], .cmd ["ntpctl", "-s", "all"], ["/etc/openntpd/ntpd.conf", "/etc/ntpd.conf"]⟩
  | "ptp4l" => some ⟨["ptp4l"], .journal, ["/etc/linuxptp/ptp4l.conf", "/etc/ptp4l.conf"]⟩
  | "phc2sys" => some ⟨["phc2sys"], .journal, ["/etc/linuxptp/phc2sys.conf"]⟩
  | _ => none

/-- `read` of a time daemon. -/
def readTimeDaemon (spec : Spec) : Look Value := do
  let unit := (← activeUnit spec.units).getD (spec.units.headD "")
  let _ ← runCmd ["systemctl", "is-active", unit]
  let _ ← runCmd ["systemctl", "is-enabled", unit]
  match spec.statusKind with
  | .cmd args observed =>
    if ← which (args.headD "") then
      let _ ← runCmd args observed
  | .journal =>
    let _ ← runCmd ["journalctl", "-u", unit, "-n", "40", "--no-pager", "-o", "short-iso"]
  if let some path ← spec.configPaths.findM? pathExists then
    let _ ← readFile path
  answer

end Look

/-- `system.settings`. -/
def systemSettings (act : HostM Value) (options : Value) : HostM Value :=
  let action := strField options "action"
  if action = "" ∨ action = "read" then Look.readSettings.prog else gated options act

/-- `chrony.manage`. -/
def chronyManage (act : HostM Value) (options : Value) : HostM Value :=
  let action := strField options "action"
  if action = "" ∨ action = "status" then Look.readChrony.prog else gated options act

/-- `timesync.manage`. -/
def timesyncManage (act : HostM Value) (options : Value) : HostM Value :=
  let daemon := strField options "daemon"
  let action := strField options "action"
  match Look.Spec.forDaemon daemon with
  | none => pure (.object [("available", .bool false),
    ("error", .string ("unsupported daemon: " ++ daemon))])
  | some spec =>
    if action = "" ∨ action = "status" then (Look.readTimeDaemon spec).prog else gated options act

variable (u : Text.Alphanumeric)

/-! ## Storage, SSH and services -/

namespace Look

/-- `list_block`. -/
def listBlock : Look Value := do
  let _ ← runCmd ["lsblk", "-J", "-b", "-o", "NAME,PATH,FSTYPE,SIZE,MOUNTPOINTS,UUID,LABEL,TYPE,RO"]
  answer

/-- `read_fstab`. -/
def readFstab : Look Value := do
  let _ ← readFile "/etc/fstab"
  answer

/-- `list_users` of the SSH handler. -/
def listLoginUsers : Look Value := do
  if Text.trim (← runCmd ["getent", "passwd"]) = "" then
    let _ ← readFile "/etc/passwd"
  answer

/-- `list_keys`. -/
def listKeys (user : String) : Look Value := do
  let unknown := Value.object [("error", .string "unknown user"), ("keys", .array [])]
  if user = "" then return unknown
  else
    match ← lookupUser user with
    | none => return unknown
    | some pwd =>
      let _ ← readFile (pwd.dir ++ "/.ssh/authorized_keys")
      answer

/-- `read_sshd`. -/
def readSshd : Look Value := do
  let _ ← readFile "/etc/ssh/sshd_config"
  answer

/-- `is_valid_unit_name`. -/
def isValidUnitName (name : String) : Bool :=
  name ≠ "" && name.utf8ByteSize ≤ 256 && !Text.contains name "/" && !Text.contains name "\\" &&
    !Text.contains name ".." && name.toList.all (isUnitChar u)

/-- `unit_status`. -/
def unitStatus (unit : String) : Look Value := do
  let _ ← run ["systemctl", "is-active", "--", unit]
  let _ ← run ["systemctl", "is-enabled", "--", unit]
  let _ ← run ["systemctl", "status", "--no-pager", "--lines=15", "--", unit]
  answer

end Look

/-- `storage.manage`. -/
def storageManage (act : HostM Value) (options : Value) : HostM Value :=
  match strField options "action" with
  | "list_block" => Look.listBlock.prog
  | "read_fstab" => Look.readFstab.prog
  | _ => gated options act

/-- `ssh.manage`. -/
def sshManage (act : HostM Value) (options : Value) : HostM Value :=
  match strField options "action" with
  | "list_users" => Look.listLoginUsers.prog
  | "list_keys" => (Look.listKeys (strField options "user")).prog
  | "read_sshd" => Look.readSshd.prog
  | _ => gated options act

/-- The `data` of `systemd.manage`. -/
def systemdManage (act : HostM Value) (data : Value) : HostM Value :=
  let unit := strField data "unit"
  match strField data "action" with
  | "start" | "stop" | "restart" | "enable" | "disable" | "reload" => gated data act
  | "status" =>
    if unit = "" then pure (failedValue "no unit specified")
    else if ¬ Look.isValidUnitName u unit then pure (failedValue "invalid unit name")
    else (Look.unitStatus unit).prog
  | "list" => Look.listUnits.prog
  | action => pure (failedValue ("unknown action: " ++ action))

/-- `certs.list`. -/
def certsList (act : HostM Value) (options : Value) : HostM Value :=
  let user := strField options "_user"
  let password := strField options "password"
  match (options.get "action").bind Value.asStr with
  | some "read_pem" => (Look.readCertPem u (strField options "path") user password).prog
  | some "save_pem" => gated options act
  | _ => (Look.scanAllCerts u user password).prog

/-! ## Users and hosts -/

namespace Look

/-- The output of `getent` stands for a failure. -/
def getentFailed (out : String) : Bool := out = "" || Text.startsWith out "error:"

/-- The groups, which `build_group_map` and `list_groups` read. -/
def readGroups : Look Unit := do
  if getentFailed (← runCmd ["getent", "group"]) then
    let _ ← readFile "/etc/group"

/-- `list_users` and its fallback. -/
def listUsers : Look Value := do
  if getentFailed (← runCmd ["getent", "passwd"]) then
    if (← readFile "/etc/passwd").isNone then return errorValue "no such file"
  else
    let _ ← runCmd ["getent", "passwd", "-s", "files"]
  readGroups
  let _ ← readFile "/etc/shadow"
  let _ ← runCmd ["lastlog"]
  answer

/-- `list_groups`. -/
def listGroups : Look Value := do
  readGroups
  answer

/-- `list_shells`. -/
def listShells : Look Value := do
  let _ ← readFile "/etc/shells"
  for shell in ← words do
    let _ ← pathExists shell
  for shell in ["/usr/sbin/nologin", "/sbin/nologin", "/bin/false"] do
    if ← verdict then
      let _ ← pathExists shell
  answer

/-- `check_user_exists`. -/
def checkUserExists (username : String) : Look Value := do
  let absent := Value.object [("exists", .bool false)]
  if username = "" ∨ Text.contains username ":" ∨ Text.contains username "\n" ∨
      256 < username.utf8ByteSize then
    return absent
  else
    return .object [("exists", .bool (!getentFailed (← runCmd ["getent", "passwd", username])))]

def keyscanError (e : String) : Value :=
  .object [("action", .string "keyscan"), ("ok", .bool false), ("error", .string e)]

/-- `action_keyscan`. -/
def actionKeyscan (address : String) (sshPort : ℕ) : Look Value := do
  if address = "" then return keyscanError "address is required"
  else if ¬ address.toList.all fun c => u.mem c || ".-:[]:".toList.contains c then
    return keyscanError "invalid address"
  else
    match ← run ["ssh-keyscan", "-p", decimal sshPort, "-T", "5", "--", address] with
    | .error e => return keyscanError ("ssh-keyscan failed: " ++ e)
    | .ok out =>
      let lines := (Text.lines out.stdout).filter fun l => !Text.startsWith l "#" && l ≠ ""
      if lines = [] then answer
      else
        let hostKeyLine ← word
        let _ ← spawn none ["ssh-keygen", "-l", "-f", "-"] (some (hostKeyLine ++ "\n"))
        answer

/-- `action_list` of the hosts. -/
def listHosts : Look Value := do
  let _ ← readFile "/etc/tenodera/hosts.json"
  answer

end Look

/-- The `data` of `users.manage`. -/
def usersManage (act : HostM Value) (data : Value) : HostM Value :=
  match strField data "action" with
  | "list" => Look.listUsers.prog
  | "list_groups" => Look.listGroups.prog
  | "list_shells" => Look.listShells.prog
  | "check_exists" => (Look.checkUserExists (strField data "username")).prog
  | _ => gated data act

/-- The `data` of `hosts.manage`; the port wraps like `u16`. -/
def hostsManage (act : HostM Value) (data : Value) : HostM Value :=
  match strField data "action" with
  | "list" => Look.listHosts.prog
  | "keyscan" => (Look.actionKeyscan u (strField data "address")
    (natField data "ssh_port" 22 % 2 ^ 16)).prog
  | _ => gated data act

/-! ## The network -/

inductive FirewallBackend
  | ufw
  | firewalld
  | nftables
  | iptables
  deriving DecidableEq, Repr

/-- The program of a firewall. -/
def FirewallBackend.command : FirewallBackend → String
  | .ufw => "ufw"
  | .firewalld => "firewall-cmd"
  | .nftables => "nft"
  | .iptables => "iptables"

def FirewallBackend.all : List FirewallBackend := [.ufw, .firewalld, .nftables, .iptables]

namespace Look

/-- The kinds of interface that `detect_iface_type` knows by name. -/
def ifacePrefixes : List String :=
  ["tun", "tap", "wg", "veth", "docker", "br-", "bond", "wl", "wlan"]

/-- `detect_iface_type`. -/
def detectIfaceType (name : String) : Look Unit := do
  let sys := "/sys/class/net/" ++ name
  if ← pathExists (sys ++ "/bridge") then return
  if Text.contains name "." ∨ ifacePrefixes.any (Text.startsWith name) then return
  if ← pathExists (sys ++ "/wireless") then return
  let _ ← readFile (sys ++ "/type")

/-- `list_interfaces_detailed`. -/
def listInterfacesDetailed : Look Value := do
  if ← succeeded ["ip", "-j", "addr", "show"] then
    for name in ← words do
      if name ≠ "lo" then detectIfaceType name
  answer

/-- `sudo_run_cmd`: through `sudo` as the agent, when there is a password. -/
def sudoRunCmd (password : String) (args : List String)
    (h : observes (stripSudo args) = true := by rfl)
    (h' : observes (stripSudo ("sudo" :: "-S" :: args)) = true := by rfl) : Look Unit := do
  if password = "" then
    let _ ← runCmd args h
  else
    let _ ← spawn none ("sudo" :: "-S" :: args) (some (password ++ "\n")) h'

/-- `detect_all_firewalls`. -/
def detectAllFirewalls : Look (List FirewallBackend) :=
  FirewallBackend.all.filterM fun backend => which backend.command

/-- `detect_firewall`. -/
def detectFirewall : Look (Option FirewallBackend) :=
  FirewallBackend.all.findM? fun backend => which backend.command

/-- `firewall_status_single`. -/
def firewallStatusSingle (password : String) : FirewallBackend → Look Unit
  | .ufw => sudoRunCmd password ["ufw", "status"]
  | .firewalld => do
    let _ ← runCmd ["firewall-cmd", "--state"]
  | .nftables => sudoRunCmd password ["nft", "list", "ruleset"]
  | .iptables => sudoRunCmd password ["iptables", "-L", "-n", "--line-numbers"]

/-- `firewall_status_all`. -/
def firewallStatusAll (password : String) : Look Value := do
  let backends ← detectAllFirewalls
  let _ ← detectFirewall
  backends.forM (firewallStatusSingle password)
  answer

/-- `parse_firewalld_rules`. -/
def parseFirewalldRules : Look Unit := do
  let zone := Text.trim (← runCmd ["firewall-cmd", "--get-default-zone"])
  let _ ← runCmd ["firewall-cmd", "--zone", zone, "--list-services"]
  let _ ← runCmd ["firewall-cmd", "--zone", zone, "--list-ports"]
  let _ ← runCmd ["firewall-cmd", "--zone", zone, "--list-rich-rules"]

/-- `firewall_rules_for`. -/
def firewallRulesFor (password : String) : FirewallBackend → Look Unit
  | .ufw => sudoRunCmd password ["ufw", "status", "numbered"]
  | .firewalld => parseFirewalldRules
  | .nftables => sudoRunCmd password ["nft", "list", "ruleset"]
  | .iptables => sudoRunCmd password ["iptables", "-L", "-n", "--line-numbers"]

/-- `firewall_rules_all`. -/
def firewallRulesAll (password : String) : Look Value := do
  (← detectAllFirewalls).forM (firewallRulesFor password)
  answer

/-- `list_ports`. -/
def listPorts (user password : String) : Look Value := do
  if ¬ (← which "ss") then
    return .object [("error", .string "ss (iproute2) is not available"), ("ports", .array [])]
  else if ¬ isValidUsername u user then
    return .object [("ports", .array []), ("error", .string "no session user")]
  else
    let _ ← brokered u user password ["ss", "-tulpnH"]
    answer

end Look

/-- The `data` of `networking.manage`. -/
def networkingManage (act : HostM Value) (data : Value) : HostM Value :=
  let password := strField data "password"
  match strField data "action" with
  | "list_interfaces" => Look.listInterfacesDetailed.prog
  | "firewall_status" => (Look.firewallStatusAll password).prog
  | "firewall_rules" => (Look.firewallRulesAll password).prog
  | "list_ports" => (Look.listPorts u (strField data "_user") password).prog
  | _ => gated data act

/-! ## Packages -/

inductive PkgBackend
  | pacman
  | apt
  | dnf
  deriving DecidableEq, Repr

/-- `backend_name`. -/
def PkgBackend.name : PkgBackend → String
  | .pacman => "pacman"
  | .apt => "apt"
  | .dnf => "dnf"

namespace Look

/-- `detect_backend`. -/
def detectBackend : Look (Option PkgBackend) :=
  [PkgBackend.pacman, .apt, .dnf].findM? fun backend => which backend.name

/-- `detect_info`. -/
def detectInfo : Look Value := do
  let _ ← detectBackend
  readFiles ["/etc/os-release", "/etc/os-release"]
  answer

/-- `list_installed`. -/
def listInstalled : Look Value := do
  match ← detectBackend with
  | some .pacman =>
    let _ ← runCmd ["pacman", "-Q"]
  | some .apt =>
    let _ ← runCmd ["dpkg-query", "-W", "-f",
      "$\x7bPackage\x7d\t$\x7bVersion\x7d\t$\x7bStatus\x7d\n"]
  | some .dnf =>
    let _ ← runCmd ["rpm", "-qa", "--queryformat",
      "%\x7bNAME\x7d\t%\x7bVERSION\x7d-%\x7bRELEASE\x7d\n"]
  | none => pure ()
  answer

/-- `is_valid_package_name`. -/
def isValidPackageName (name : String) : Bool :=
  name ≠ "" && !Text.startsWith name "-" && name.utf8ByteSize ≤ 256 &&
    name.toList.all fun c => u.mem c || "-._+:".toList.contains c

/-- `search_packages`; the tool is asked once more about the names that it finds. -/
def searchPackages (query : String) : Look Value := do
  if query = "" then return errorValue "query required"
  else if ¬ isValidPackageName u query then return errorValue "invalid search query"
  else
    match ← detectBackend with
    | some .pacman =>
      let _ ← runCmd ["pacman", "-Ss", "--", query]
    | some .apt =>
      let _ ← runCmd ["apt-cache", "search", "--", query]
      let names ← words
      if names ≠ [] then
        let _ ← runCmd (["dpkg-query", "-W", "-f",
          "$\x7bPackage\x7d\t$\x7bStatus\x7d\t$\x7bVersion\x7d\n", "--"] ++ names)
    | some .dnf =>
      let _ ← runCmd ["dnf", "search", "--quiet", query]
      let names ← words
      if names ≠ [] then
        let _ ← run (["rpm", "-q", "--qf", "%\x7bNAME\x7d\n", "--"] ++ names)
    | none => pure ()
    answer

/-- `package_info`. -/
def packageInfo (name : String) : Look Value := do
  if name = "" then return errorValue "package name required"
  else if ¬ isValidPackageName u name then return errorValue "invalid package name"
  else
    match ← detectBackend with
    | some .pacman =>
      if Text.contains (← runCmd ["pacman", "-Qi", "--", name]) "was not found" then
        let _ ← runCmd ["pacman", "-Si", "--", name]
    | some .apt =>
      let _ ← runCmd ["apt-cache", "show", "--", name]
      let _ ← run ["dpkg-query", "-W", "-f", "$\x7bStatus\x7d", "--", name]
    | some .dnf =>
      let _ ← runCmd ["dnf", "info", "--quiet", name]
    | none => return errorValue "no package manager"
    answer

/-- `timer_state` and `timer_oncalendar`. -/
def timerState (unit : String) : Look Unit := do
  let _ ← runCmd ["systemctl", "is-active", unit]
  let _ ← runCmd ["systemctl", "is-enabled", unit]
  let _ ← runCmd ["systemctl", "show", unit, "-p", "NextElapseUSecRealtime", "--value"]
  let _ ← runCmd ["systemctl", "show", unit, "-p", "TimersCalendar", "--value"]

/-- `autoupdate_status`. -/
def autoupdateStatus : Look Value := do
  match ← detectBackend with
  | some .apt =>
    let _ ← which "unattended-upgrade"
    readFiles ["/etc/apt/apt.conf.d/20auto-upgrades",
      "/etc/apt/apt.conf.d/51tenodera-unattended"]
    timerState "apt-daily-upgrade.timer"
  | some .dnf =>
    if ¬ (← which "dnf-automatic") then
      let _ ← pathExists "/etc/dnf/automatic.conf"
    let _ ← readFile "/etc/dnf/automatic.conf"
    timerState "dnf-automatic.timer"
  | _ => pure ()
  answer

end Look

/-- The `data` of `packages.manage`; there is nothing behind `list_updates`. -/
def packagesManage (act : HostM Value) (data : Value) : HostM Value :=
  match strField data "action" with
  | "detect" => Look.detectInfo.prog
  | "list_installed" => Look.listInstalled.prog
  | "search" => (Look.searchPackages u (strField data "query")).prog
  | "package_info" => (Look.packageInfo u (strField data "name")).prog
  | "list_updates" => pure (errorValue "unknown action: list_updates")
  | "autoupdate_status" => Look.autoupdateStatus.prog
  | _ => gated data act

/-! ## Without the role -/

section

variable {u : Text.Alphanumeric} {act : HostM Value} {options data : Value}

/-- What a request without the role reaches behind a list of actions that look. -/
theorem quiet_ite_gated {c : Prop} [Decidable c] (look : Look Value) (h : isAdmin options = false) :
    Quiet (if c then look.prog else gated options act) :=
  Prog.Only.ite (fun _ => look.quiet) fun _ => quiet_gated h

theorem quiet_systemSettings (h : isAdmin options = false) :
    Quiet (systemSettings act options) := quiet_ite_gated Look.readSettings h

theorem quiet_chronyManage (h : isAdmin options = false) : Quiet (chronyManage act options) :=
  quiet_ite_gated Look.readChrony h

theorem quiet_timesyncManage (h : isAdmin options = false) :
    Quiet (timesyncManage act options) := by
  unfold timesyncManage
  dsimp only
  split
  · exact quiet_pure _
  · exact quiet_ite_gated _ h

theorem quiet_storageManage (h : isAdmin options = false) : Quiet (storageManage act options) := by
  unfold storageManage
  split
  iterate 2 exact Look.quiet _
  exact quiet_gated h

theorem quiet_sshManage (h : isAdmin options = false) : Quiet (sshManage act options) := by
  unfold sshManage
  split
  iterate 3 exact Look.quiet _
  exact quiet_gated h

theorem quiet_systemdManage (h : isAdmin data = false) : Quiet (systemdManage u act data) := by
  unfold systemdManage
  dsimp only
  split
  iterate 6 exact quiet_gated h
  · refine Prog.Only.ite (fun _ => quiet_pure _) fun _ => ?_
    exact Prog.Only.ite (fun _ => quiet_pure _) fun _ => Look.quiet _
  · exact Look.quiet _
  · exact quiet_pure _

theorem quiet_certsList (h : isAdmin options = false) : Quiet (certsList u act options) := by
  unfold certsList
  dsimp only
  split
  · exact Look.quiet _
  · exact quiet_gated h
  · exact Look.quiet _

theorem quiet_usersManage (h : isAdmin data = false) : Quiet (usersManage act data) := by
  unfold usersManage
  split
  iterate 4 exact Look.quiet _
  exact quiet_gated h

theorem quiet_hostsManage (h : isAdmin data = false) : Quiet (hostsManage u act data) := by
  unfold hostsManage
  split
  iterate 2 exact Look.quiet _
  exact quiet_gated h

theorem quiet_networkingManage (h : isAdmin data = false) :
    Quiet (networkingManage u act data) := by
  unfold networkingManage
  dsimp only
  split
  iterate 4 exact Look.quiet _
  exact quiet_gated h

theorem quiet_packagesManage (h : isAdmin data = false) : Quiet (packagesManage u act data) := by
  unfold packagesManage
  split
  iterate 4 exact Look.quiet _
  · exact quiet_pure _
  · exact Look.quiet _
  · exact quiet_gated h

end

end Tenodera.Agent.Host

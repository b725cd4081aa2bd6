import Tenodera.Agent.Containers
import Tenodera.Agent.Managers
import Tenodera.Lib.IpAddr

/-!
# The network handler

`networking.manage`, with the actions that it keeps for administrators: firewalls, interfaces, VPNs,
logs and processes.  What it changes, it changes through `sudo` as the user.
-/

namespace Tenodera.Agent.Host

open Protocol

variable (u : Text.Alphanumeric)

/-- A text field, with a default. -/
def textField (data : Value) (key default : String) : String :=
  ((data.get key).bind Value.asStr).getD default

/-! ## Firewalls -/

/-- `parse_backend`. -/
def parseBackend : String → Option FirewallBackend
  | "ufw" => some .ufw
  | "firewalld" => some .firewalld
  | "nftables" => some .nftables
  | "iptables" => some .iptables
  | _ => none

def firewallEnableCmdFor : Option FirewallBackend → List String
  | some .ufw => ["ufw", "--force", "enable"]
  | some .firewalld => ["systemctl", "start", "firewalld"]
  | some .nftables => ["systemctl", "start", "nftables"]
  | _ => ["true"]

def firewallDisableCmdFor : Option FirewallBackend → List String
  | some .ufw => ["ufw", "disable"]
  | some .firewalld => ["systemctl", "stop", "firewalld"]
  | some .nftables => ["systemctl", "stop", "nftables"]
  | _ => ["true"]

/-- The backend that is given, or else the one that is found.  It is looked for in any case. -/
def orDetected (backend : Option FirewallBackend) : HostM (Option FirewallBackend) := do
  let detected ← Look.detectFirewall.prog
  return backend <|> detected

/-- `firewall_enable` and `firewall_disable`, by their commands. -/
def firewallSwitch (cmdFor : Option FirewallBackend → List String) (data : Value)
    (user password : String) : HostM Value := do
  let backend ← orDetected (parseBackend (strField data "backend"))
  sudoAsUser user password (cmdFor backend)

/-- A port, or a range of ports. -/
def validatePort (port : String) : Bool :=
  (port.toList.splitOn ':').all fun part => isPort (String.ofList part)

def validateProto (proto : String) : Bool := proto ∈ ["tcp", "udp", "icmp"]

/-- `str::rsplit_once`. -/
def rsplitOnce (s : List Char) (c : Char) : Option (List Char × List Char) :=
  if c ∈ s then some (((s.rdropWhile (· ≠ c)).dropLast), s.rtakeWhile (· ≠ c)) else none

example : rsplitOnce "10.0.0.0/8".toList '/' = some ("10.0.0.0".toList, ['8']) := by decide

def validateIpOrCidr (s : String) : Bool :=
  s = "any" ||
    match rsplitOnce s.toList '/' with
    | some (addr, len) =>
      (Text.parseUnsigned 32 (String.ofList len)).any (· ≤ 128) &&
        (IpAddr.parse (String.ofList addr)).isSome
    | none => (IpAddr.parse s).isSome

def validateServiceName (s : String) : Bool :=
  s ≠ "" && s.utf8ByteSize ≤ 128 &&
    s.toList.all fun c => c.isAlphanum || c = '-' || c = '_' || c = '.'

def ufwAddRule (user password : String) (rule : Value) : HostM Value :=
  let port := strField rule "port"
  let proto := textField rule "proto" "tcp"
  let action := textField rule "action" "allow"
  let source := textField rule "from" "any"
  if port = "" then pure (errorValue "port required")
  else if ¬ validatePort port then pure (errorValue "invalid port number")
  else if ¬ validateProto proto then pure (errorValue "invalid protocol (tcp, udp, icmp)")
  else if action ∉ ["allow", "deny", "reject", "limit"] then pure (errorValue "invalid action")
  else if ¬ validateIpOrCidr source then
    pure (errorValue "invalid source address (expected IP, CIDR, or \"any\")")
  else if source = "any" then
    sudoAsUser user password ["ufw", action, port ++ "/" ++ proto]
  else
    sudoAsUser user password
      ["ufw", action, "from", source, "to", "any", "port", port, "proto", proto]

def firewalldAddRule (user password : String) (rule : Value) : HostM Value :=
  let port := strField rule "port"
  let proto := textField rule "proto" "tcp"
  match (rule.get "service").bind Value.asStr with
  | some service =>
    if ¬ validateServiceName service then
      pure (errorValue
        "invalid service name (alphanumeric, hyphens, underscores, dots only)")
    else sudoAsUser user password ["firewall-cmd", "--permanent", "--add-service", service]
  | none =>
    if port = "" then pure (errorValue "port or service required")
    else if ¬ validatePort port then pure (errorValue "invalid port number")
    else if ¬ validateProto proto then pure (errorValue "invalid protocol (tcp, udp, icmp)")
    else
      sudoAsUser user password ["firewall-cmd", "--permanent", "--add-port", port ++ "/" ++ proto]

/-- The rules of `nft` and of `iptables`, which share their checks. -/
def tableAddRule (user password : String) (rule : Value) (backend : Option FirewallBackend) :
    HostM Value :=
  let port := strField rule "port"
  let proto := textField rule "proto" "tcp"
  let action := textField rule "action" "accept"
  if port = "" then pure (errorValue "port required")
  else if ¬ validatePort port then pure (errorValue "invalid port number")
  else if ¬ validateProto proto then pure (errorValue "invalid protocol (tcp, udp, icmp)")
  else
    match backend with
    | some .iptables =>
      let target :=
        if action ∈ ["drop", "deny"] then "DROP"
        else if action = "reject" then "REJECT"
        else "ACCEPT"
      sudoAsUser user password
        ["iptables", "-A", "INPUT", "-p", proto, "--dport", port, "-j", target]
    | some .nftables =>
      let verdict :=
        if action ∈ ["drop", "deny"] then "drop"
        else if action = "reject" then "reject"
        else "accept"
      sudoAsUser user password
        ["nft", "add", "rule", "inet", "filter", "input", proto, "dport", port, verdict]
    | _ => pure (errorValue "no firewall backend available")

/-- What `firewall_add_rule` does with a backend. -/
def addRuleTo (user password : String) (rule : Value) : Option FirewallBackend → HostM Value
  | some .ufw => ufwAddRule user password rule
  | some .firewalld => firewalldAddRule user password rule
  | backend => tableAddRule user password rule backend

def firewallAddRule (user password : String) (rule : Value) :
    Option FirewallBackend → HostM Value
  | some backend => addRuleTo user password rule (some backend)
  | none => do addRuleTo user password rule (← Look.detectFirewall.prog)

/-- `rule.get("number").and_then(|v| v.as_u64())`, as text. -/
def ruleNumber (rule : Value) : Option String :=
  ((rule.get "number").bind Value.asU64).map fun n => decimal n.toNat

def firewalldRemoveRule (user password : String) (rule : Value) : HostM Value :=
  let port := strField rule "port"
  let proto := textField rule "proto" "tcp"
  match (rule.get "service").bind Value.asStr with
  | some service =>
    if ¬ validateServiceName service then pure (errorValue "invalid service name")
    else sudoAsUser user password ["firewall-cmd", "--permanent", "--remove-service", service]
  | none =>
    if port = "" then pure (errorValue "port/service or rule number required")
    else
      sudoAsUser user password
        ["firewall-cmd", "--permanent", "--remove-port", port ++ "/" ++ proto]

/-- What `firewall_remove_rule` does with a backend. -/
def removeRuleFrom (user password : String) (rule : Value) (backend : Option FirewallBackend) :
    HostM Value :=
  match backend, ruleNumber rule with
  | some .ufw, some n => sudoAsUser user password ["ufw", "--force", "delete", n]
  | some .ufw, none => pure (errorValue "rule number required for ufw delete")
  | some .firewalld, _ => firewalldRemoveRule user password rule
  | some .iptables, some n =>
    let chain := ((splitWhitespace (strField rule "chain"))[1]?).getD "INPUT"
    sudoAsUser user password ["iptables", "-D", chain, n]
  | some .iptables, none => pure (errorValue "rule number required for iptables delete")
  | some .nftables, some n =>
    sudoAsUser user password
      ["nft", "delete", "rule", textField rule "family" "inet", textField rule "table" "filter",
        textField rule "chain" "input", "handle", n]
  | some .nftables, none => pure (errorValue "rule handle required for nftables delete")
  | none, _ => pure (errorValue "no firewall backend available")

def firewallRemoveRule (user password : String) (rule : Value) :
    Option FirewallBackend → HostM Value
  | some backend => removeRuleFrom user password rule (some backend)
  | none => do
    let backend ← orDetected (((rule.get "backend").bind Value.asStr).bind parseBackend)
    removeRuleFrom user password rule backend

/-! ## Interfaces and VPNs -/

/-- A name that is made of letters, digits and some further characters. -/
def isNameOf (extra : List Char) (name : String) : Bool :=
  name ≠ "" && name.toList.all fun c => u.mem c || c ∈ extra

/-- The command did what it should. -/
def isOk (res : Value) : Bool := (res.get "ok").bind Value.asBool = some true

def addBridge (user password name : String) : HostM Value :=
  if ¬ isNameOf u ['-', '_'] name then pure (errorValue "invalid bridge name")
  else do
    if ← which "nmcli" then
      sudoAsUser user password
        ["nmcli", "connection", "add", "type", "bridge", "ifname", name, "con-name", name]
    else
      let res ← sudoAsUser user password ["ip", "link", "add", "name", name, "type", "bridge"]
      if isOk res then sudoAsUser user password ["ip", "link", "set", "dev", name, "up"]
      else return res

/-- `add_vlan`; the number comes as a `u64` and is cut to 32 bits before. -/
def addVlan (user password parent : String) (vlanId : ℕ) : HostM Value :=
  if parent = "" ∨ vlanId = 0 ∨ 4094 < vlanId then
    pure (errorValue "invalid parent or VLAN ID (1-4094)")
  else if ¬ isNameOf u ['-', '_'] parent then pure (errorValue "invalid parent interface name")
  else do
    let id := decimal vlanId
    let name := parent ++ "." ++ id
    if ← which "nmcli" then
      sudoAsUser user password
        ["nmcli", "connection", "add", "type", "vlan", "ifname", name, "dev", parent, "id", id]
    else
      sudoAsUser user password
        ["ip", "link", "add", "link", parent, "name", name, "type", "vlan", "id", id]

def removeInterface (user password name : String) : HostM Value :=
  if ¬ isNameOf u ['-', '_', '.'] name then pure (errorValue "invalid interface name")
  else do
    if ← which "nmcli" then
      let res ← sudoAsUser user password ["nmcli", "connection", "delete", "--", name]
      if isOk res then return res
    sudoAsUser user password ["ip", "link", "delete", "dev", name]

/-- `iface_up` and `iface_down`, by the state that they set. -/
def ifaceSet (user password name state : String) : HostM Value :=
  if ¬ isNameOf u ['-', '_', '.'] name then pure (errorValue "invalid interface name")
  else sudoAsUser user password ["ip", "link", "set", "dev", name, state]

/-- `vpn_connect` and `vpn_disconnect`, by their verb. -/
def vpnSet (user password name verb : String) : HostM Value :=
  if ¬ isNameOf u ['-', '_', ' '] name then pure (errorValue "invalid connection name")
  else sudoAsUser user password ["nmcli", "connection", verb, "--", name]

def vpnList : HostM Value := do
  if ¬ (← which "nmcli") then
    return .object
      [("vpns", .array []), ("note", .string "NetworkManager not available")]
  else
    let _ ← runCmd ["nmcli", "-t", "-f", "NAME,TYPE,DEVICE,STATE", "connection", "show"]
    perform .json

/-! ## Logs and processes -/

/-- `network_logs`: the journal, as the agent. -/
def networkLogs (lines : ℕ) : HostM Value := do
  let unit := if ← which "nmcli" then "NetworkManager" else "systemd-networkd"
  let _ ← runCmd ["journalctl", "-u", unit, "-n", decimal (min lines 500), "--no-pager",
    "--output=short-iso"]
  let _ ← runCmd ["journalctl", "-t", "kernel", "--grep", "UFW\\|FIREWALL\\|nft\\|iptables", "-n",
    "50", "--no-pager", "--output=short-iso"]
  perform .json

def killProcess (user password : String) (pid : ℕ) (signal : String) : HostM Value :=
  if pid ≤ 1 then pure (errorValue "refusing to signal this pid")
  else do
    let sig := if signal ∈ ["KILL", "TERM", "HUP", "INT"] then signal else "TERM"
    let res ← sudoAsUser user password ["kill", "-" ++ sig, decimal pid]
    let ok := (res.get "error").isNone
    let _ ← perform (.audit user "net.kill_process" (decimal pid) ok sig)
    return if ok then okValue else res

/-! ## The handler -/

/-- The rule of the request. -/
def ruleField (data : Value) : Value := (data.get "rule").getD .null

/-- The backend that the request names, or that its rule names. -/
def ruleBackend (data : Value) : Option FirewallBackend :=
  parseBackend (((data.get "backend").bind Value.asStr <|>
    ((ruleField data).get "backend").bind Value.asStr).getD "")

/-- The actions for administrators. -/
def networkDispatch (data : Value) : HostM Value :=
  let action := strField data "action"
  let user := strField data "_user"
  let password := strField data "password"
  let name := strField data "name"
  match action with
  | "firewall_enable" => firewallSwitch firewallEnableCmdFor data user password
  | "firewall_disable" => firewallSwitch firewallDisableCmdFor data user password
  | "firewall_add_rule" => firewallAddRule user password (ruleField data) (ruleBackend data)
  | "firewall_remove_rule" => firewallRemoveRule user password (ruleField data) (ruleBackend data)
  | "add_bridge" => addBridge u user password name
  | "add_vlan" =>
    addVlan u user password (strField data "parent") (natField data "vlan_id" 0 % 2 ^ 32)
  | "remove_interface" => removeInterface u user password name
  | "iface_up" => ifaceSet u user password name "up"
  | "iface_down" => ifaceSet u user password name "down"
  | "vpn_list" => vpnList
  | "vpn_connect" => vpnSet u user password name "up"
  | "vpn_disconnect" => vpnSet u user password name "down"
  | "network_logs" => networkLogs (natField data "lines" 100)
  | "kill_process" =>
    killProcess user password (natField data "pid" 0) (textField data "signal" "TERM")
  | _ => pure (errorValue ("unknown action: " ++ action))

/-- The actions that leave an entry in the audit log. -/
def auditedNetworkActions : List String :=
  ["firewall_enable", "firewall_disable", "firewall_add_rule", "firewall_remove_rule", "add_bridge",
    "add_vlan", "remove_interface", "iface_up", "iface_down", "vpn_connect", "vpn_disconnect"]

def auditNetwork (data result : Value) : HostM Unit :=
  let action := strField data "action"
  if action ∈ auditedNetworkActions then
    perform (.audit (strField data "_user") ("net." ++ action)
      (((data.get "name" <|> data.get "parent").bind Value.asStr).getD "")
      (result.get "error").isNone "")
  else pure ()

/-- The answer names the action, unless it does already. -/
def echoAction (action : String) : Value → Value
  | .object entries =>
    if ((Value.object entries).get "action").isNone ∧ action ≠ "" then
      .object (entries ++ [("action", .string action)])
    else .object entries
  | result => result

/-- The actions that every role may ask for. -/
def openNetworkActions : List String :=
  ["list_interfaces", "firewall_status", "firewall_rules", "list_ports"]

/-- `data`: a refusal is not audited, and does not name the action. -/
def networkData (data : Value) : HostM Value :=
  let action := strField data "action"
  match if action ∈ openNetworkActions then none else requireAdmin data with
  | some err => pure err
  | none => do
    let result ← networkingManage u (networkDispatch u data) data
    auditNetwork data result
    return echoAction action result

end Tenodera.Agent.Host

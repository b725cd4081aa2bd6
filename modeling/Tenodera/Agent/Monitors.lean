import Tenodera.Agent.Look

/-!
# The handlers that only look

Handlers without a check of the role that read the state of the host.  They are written in `Look`,
so each definition carries the proof that the handler changes nothing.  What they read out of the
texts of the host, and what they answer with, is left open.
-/

namespace Tenodera.Agent.Host.Look

open Protocol Effect Path

variable (u : Text.Alphanumeric)

/-! ## The system and its hardware -/

/-- `system.info`. -/
def systemInfo : Look Value := do
  let _ ← perform .uname
  let _ ← readFile "/etc/os-release"
  let _ ← readFile "/proc/uptime"
  let bootEpoch ← word
  let _ ← run ["date", "-d", "@" ++ bootEpoch, "+%Y-%m-%d %H:%M:%S"]
  let _ ← run ["date", "+%Y-%m-%d %H:%M:%S"]
  let _ ← run ["date", "+%Z"]
  answer

/-- The files of one sensor. -/
def readTemperature (hwmon : String) (i : ℕ) : Look Unit := do
  let base := hwmon ++ "/temp" ++ decimal i
  if (← readFile (base ++ "_input")).isNone then return
  if ← verdict then readFiles [base ++ "_label", base ++ "_crit"]

/-- `get_temperatures`. -/
def getTemperatures : Look Unit := do
  for name in ← readDir "/sys/class/hwmon" do
    let hwmon := "/sys/class/hwmon/" ++ name
    let _ ← readFile (hwmon ++ "/name")
    (List.range' 1 20).forM (readTemperature hwmon)

/-- `hardware.info`. -/
def hardwareInfo : Look Value := do
  let _ ← readFile "/proc/cpuinfo"
  let _ ← perform .uname
  getTemperatures
  answer

/-- `disk.usage`. -/
def diskUsage : Look Value := do
  if (← readFile "/proc/mounts").isSome then
    for mount in ← words do
      let _ ← perform (.statvfs mount)
  answer

/-- `metrics.snapshot`. -/
def metricsSnapshot : Look Value := do
  let counters := ["/proc/stat", "/proc/stat", "/proc/diskstats", "/proc/net/dev"]
  readFiles counters
  readFiles counters
  readFiles ["/proc/meminfo", "/proc/meminfo", "/proc/loadavg"]
  answer

/-- `system.pubkey`. -/
def systemPubkey : Look Value := do
  let keyPath := (← perform (.env "TENODERA_SSH_KEY")).getD "/etc/tenodera/id_ed25519"
  let _ ← readFile (keyPath ++ ".pub")
  answer

/-- `host.config`. -/
def hostConfig : Look Value := do
  readFiles ["/etc/hostname", "/proc/uptime", "/etc/tenodera/agent.cnf"]
  answer

def psArgs : List String :=
  ["ps", "--no-headers", "-eo", "pid,user,%cpu,%mem,rss,comm", "--sort=-%cpu"]

/-- `top.processes`. -/
def topProcesses (options : Value) : Look Value := do
  let user := strField options "_user"
  let password := strField options "password"
  if ¬ isValidUsername u user then
    return .object [("processes", .array []), ("error", .string "no session user")]
  else if password ≠ "" then
    let _ ← sudoAsUser user password psArgs
    answer
  else
    let _ ← runCmdAsUser user psArgs
    answer

/-! ## The network -/

/-- `network.stats`. -/
def networkStats : Look Value := do
  if (← readFile "/proc/net/dev").isSome then
    for iface in ← words do
      let sys := "/sys/class/net/" ++ iface
      readFiles [sys ++ "/operstate", sys ++ "/address", sys ++ "/speed"]
      let _ ← run ["ip", "-j", "addr", "show", iface]
  answer

/-- `networking.snapshot`. -/
def networkingSnapshot : Look Value := do
  readFiles ["/proc/net/dev", "/proc/net/dev"]
  answer

/-- The `stream` of `networking.stream`. -/
def networkingStream : Look Unit := do
  let _ ← readFile "/proc/net/dev"
  for _ in List.range (← count) do
    let _ ← readFile "/proc/net/dev"

/-- `dns.info`. -/
def dnsInfo : Look Value := do
  readFiles ["/etc/resolv.conf", "/etc/hosts"]
  let _ ← runCmd ["systemctl", "is-active", "systemd-resolved"]
  answer

/-- `is_safe_name`. -/
def isSafeName (name : String) : Bool :=
  name ≠ "" && name.utf8ByteSize ≤ 253 &&
    name.toList.all fun c => c.isAlphanum || c = '.' || c = '-' || c = '_' || c = ':'

/-- `sanitise_qtype`. -/
def sanitiseQtype (t : String) : String :=
  let upper := String.ofList (t.toList.map Char.toUpper)
  if upper ∈ ["A", "AAAA", "MX", "NS", "TXT", "CNAME", "SOA", "PTR", "SRV"] then upper else "A"

/-- `do_lookup_inner`: with the first tool that the host has. -/
def doLookup (name qtype : String) : Look Value := do
  if ← which "dig" then
    let _ ← runCmd ["dig", "+short", "+time=3", "+tries=1", name, qtype]
    answer
  else if ← which "host" then
    let _ ← runCmd ["host", "-t", qtype, name]
    answer
  else if ← which "resolvectl" then
    let _ ← runCmd ["resolvectl", "query", name]
    answer
  else if ← which "nslookup" then
    let _ ← runCmd ["nslookup", name]
    answer
  else
    return .object [("ok", .bool false),
      ("output", .string "No DNS lookup tool found (dig, host, resolvectl, nslookup)")]

/-- `dns.lookup`. -/
def dnsLookup (options : Value) : Look Value :=
  let name := Text.trim (strField options "name")
  let qtype := Text.trim (((options.get "qtype").bind Value.asStr).getD "A")
  if name = "" then
    pure (.object [("ok", .bool false), ("output", .string "No hostname specified")])
  else if ¬ isSafeName name then
    pure (.object [("ok", .bool false), ("output", .string "Invalid hostname")])
  else doLookup name (sanitiseQtype qtype)

/-- `read_resolved_conf`. -/
def readResolvedConf : Look Unit := do
  let content := (← readFile "/etc/systemd/resolved.conf").getD ""
  if content = "" then readFiles ["/usr/lib/systemd/resolved.conf"]
  let _ ← pathExists "/etc/systemd/resolved.conf"

/-- `dns.resolved.info`. -/
def dnsResolvedInfo : Look Value := do
  let active := Text.trim (← runCmd ["systemctl", "is-active", "systemd-resolved"]) = "active"
  let hasResolvectl ← which "resolvectl"
  if active ∧ hasResolvectl then
    let _ ← runCmd ["resolvectl", "status"]
    let _ ← runCmd ["resolvectl", "statistics"]
  readResolvedConf
  answer

/-! ## Storage -/

/-- `get_block_devices`: the older `lsblk` has no `MOUNTPOINTS`. -/
def getBlockDevices : Look Unit := do
  if ¬ (← succeeded ["lsblk", "-J", "-b", "-o", "NAME,SIZE,TYPE,MOUNTPOINTS"]) then
    if ¬ (← succeeded ["lsblk", "-J", "-b", "-o", "NAME,SIZE,TYPE,MOUNTPOINT"]) then return
  for mount in ← words do
    let _ ← perform (.statvfs mount)

/-- The `stream` of `storage.stream`. -/
def storageStream : Look Unit := do
  for _ in List.range (← count) do
    readFiles ["/proc/diskstats", "/proc/vmstat"]
    getBlockDevices
    let _ ← readFile "/proc/meminfo"

/-- `storage.snapshot`. -/
def storageSnapshot : Look Value := do
  readFiles ["/proc/diskstats", "/proc/vmstat"]
  readFiles ["/proc/diskstats", "/proc/vmstat"]
  getBlockDevices
  let _ ← readFile "/proc/meminfo"
  answer

/-- `validate_dir`. -/
def validateDir (raw : String) : Look (Except String String) := do
  if ¬ Text.startsWith raw "/" then return .error "path must be absolute"
  else
    match ← canonicalText raw with
    | none => return .error "path not found"
    | some path => return if ← perform (.isDir path) then .ok path else .error "not a directory"

/-- The `stream` of `storage.du`; only one scan runs at a time. -/
def storageDu (options : Value) : Look Value := do
  match ← validateDir (((options.get "path").bind Value.asStr).getD "/") with
  | .error e => return errorValue e
  | .ok path =>
    if ← verdict then return errorValue "another scan is already running on this host"
    else
      let _ ← run ["nice", "-n", "19", "ionice", "-c", "3", "du", "-x", "--block-size=1",
        "--max-depth=1", "--", path]
      let _ ← readDir path
      answer

/-! ## Services, timers and logs -/

/-- `list_units`. -/
def listUnits : Look Value := do
  let _ ← run ["systemctl", "list-units", "--type=service", "--all", "--output=json", "--no-pager"]
  answer

/-- `systemd.timers`. -/
def listTimers : Look Value := do
  let _ ← run ["systemctl", "list-units", "--type=timer", "--all", "--plain", "--no-legend",
    "--no-pager"]
  let names ← words
  if names = [] then return .array []
  else
    let _ ← run (["systemctl", "show",
      "--property=Id,ActiveState,SubState,Description,NextElapseUSecRealtime,LastTriggerUSec," ++
        "UnitFileState,Triggers"] ++ names)
    answer

def isUnitChar (c : Char) : Bool := u.mem c || ".@-_:".toList.contains c

def priorities : List String :=
  ["0", "1", "2", "3", "4", "5", "6", "7", "emerg", "alert", "crit", "err", "warning", "notice",
    "info", "debug"]

def journalArgs (options : Value) : List String :=
  ["journalctl", "--output=json", "--no-pager",
      "--lines=" ++ decimal (natField options "lines" 100)] ++
    (((options.get "unit").bind Value.asStr).map ("--unit=" ++ ·)).toList ++
    (((options.get "priority").bind Value.asStr).map ("--priority=" ++ ·)).toList

/-- `journal.query`. -/
def journalQuery (options : Value) : Look Value := do
  let user := strField options "_user"
  let password := strField options "password"
  let unit := strField options "unit"
  if ¬ (unit.toList.all (isUnitChar u)) ∨ 256 < unit.utf8ByteSize then
    return errorValue "invalid unit name"
  else if ((options.get "priority").bind Value.asStr).any (· ∉ priorities) then
    return errorValue "invalid priority"
  else if ¬ isValidUsername u user then return errorValue "no session user"
  else if password ≠ "" then
    let _ ← sudoAsUser user password (journalArgs options)
    answer
  else
    let _ ← runCmdAsUser user (journalArgs options)
    answer

inductive Brokered
  | noAccount
  | ran (out : Output)
  | failed (e : String)

/-- `broker_output`. -/
def brokerOutput (user password : String) (args : List String)
    (h : observes (stripSudo args) = true := by rfl)
    (h' : observes (stripSudo ("sudo" :: "-S" :: args)) = true := by rfl) : Look Brokered := do
  if ¬ isValidUsername u user then return .failed "no session user"
  else
    match ← lookupUser user with
    | none => return .noAccount
    | some _ =>
      let out ← if password = "" then spawn (some user) args none h
        else spawn (some user) ("sudo" :: "-S" :: args) (some (password ++ "\n")) h'
      match out with
      | .error e => return .failed e
      | .ok out => return .ran out

/-- `validate_log_path`. -/
def validateLogPath (path : String) : Except String String :=
  if path = "" ∨ ¬ Text.startsWith path "/" ∨ Text.contains path ".." then .error "invalid path"
  else if path ≠ "/var/log" ∧ ¬ Text.startsWith path "/var/log/" then
    .error "path must be under /var/log"
  else .ok path

def contextArgs (before after : ℕ) : List String :=
  if 0 < before ∨ 0 < after then ["-B" ++ decimal before, "-A" ++ decimal after] else []

def maxArgs (maxLines : ℕ) : List String :=
  if 0 < maxLines then ["-m" ++ decimal maxLines] else []

/-- The `data` of `log.files`. -/
def logFiles (data : Value) : Look Value := do
  let action := strField data "action"
  let user := strField data "_user"
  let password := strField data "password"
  let path := strField data "path"
  match action with
  | "list" | "refresh" =>
    let _ ← brokerOutput u user password
      ["find", "/var/log", "-maxdepth", "5", "-type", "f", "-printf", "%p\\t%s\\t%T@\\n"]
    answer
  | "tail" =>
    match validateLogPath path with
    | .error e => return failedValue e
    | .ok path =>
      let _ ← brokerOutput u user password
        ["tail", "-n", decimal (min (natField data "lines" 100) 10000), "--", path]
      answer
  | "search" =>
    match validateLogPath path with
    | .error e => return failedValue e
    | .ok path =>
      let query := strField data "query"
      let noLimit := ((data.get "date_from").bind Value.asStr).isSome ||
        ((data.get "date_to").bind Value.asStr).isSome
      let maxLines := if noLimit then 0 else min (natField data "lines" 100) 10000
      if query = "" then return failedValue "query is empty"
      else
        let _ ← brokerOutput u user password (["grep", "-n", "-i"] ++
          contextArgs (min (natField data "before" 0) 50) (min (natField data "after" 0) 50) ++
          maxArgs maxLines ++ ["-F", "--", query, path])
        answer
  | "filter" =>
    match validateLogPath path with
    | .error e => return failedValue e
    | .ok path =>
      -- Whether the dates can be read is left open.
      if ← verdict then return failedValue "no date range specified"
      else
        let _ ← brokerOutput u user password ["cat", "--", path]
        answer
  | _ => return failedValue ("unknown action: " ++ action)

/-- `cron.list`. -/
def cronList (options : Value) : Look Value := do
  let user := strField options "_user"
  let password := strField options "password"
  let _ ← readFile "/etc/crontab"
  for name in ← readDir "/etc/cron.d" do
    if ¬ Text.startsWith name "." ∧ ¬ "~".toList.isSuffixOf name.toList then
      let _ ← readFile ("/etc/cron.d/" ++ name)
  if password ≠ "" then
    let _ ← sudoAsUser user password ["ls", "/var/spool/cron/crontabs"]
    for username in ← words do
      let _ ← sudoAsUser user password ["crontab", "-u", username, "-l"]
  else if isValidUsername u user then
    let _ ← runCmdAsUser user ["crontab", "-l"]
  answer

/-! ## Certificates -/

/-- The extension of a file name; what starts with its only dot has none. -/
def isCertificateFile (name : String) : Bool :=
  [".pem", ".crt", ".cer"].any fun ext => ext.toList.isSuffixOf name.toList && name ≠ ext

/-- `parse_cert`: without a user, as the agent. -/
def parseCert (path user password : String) : Look Unit := do
  let args := ["openssl", "x509", "-in", path, "-noout", "-subject", "-issuer", "-startdate",
    "-enddate", "-ext", "subjectAltName", "-ext", "basicConstraints"]
  if user = "" then
    let _ ← runCmd args
  else
    let _ ← brokered u user password args

/-- `read_cert_pem`. -/
def readCertPem (path user password : String) : Look Value := do
  if path = "" ∨ Text.contains path ".." ∨ ¬ Text.startsWith path "/" then
    return failedValue "invalid path"
  else if ¬ ["pem", "crt", "cer"].any fun ext => ext.toList.isSuffixOf path.toList then
    return failedValue "not a certificate file"
  else
    let _ ← brokered u user password ["cat", "--", path]
    answer

/-- `scan_dir_recursive`; the directories of the tree come as they are found. -/
def scanDirRecursive (dir user password : String) : Look Unit := do
  if ¬ (← pathExists dir) then return
  for current in ← words do
    for name in ← readDir current do
      if isCertificateFile name then parseCert u (current ++ "/" ++ name) user password

/-- `CERT_DIRS`. -/
def certDirs : List String :=
  ["/usr/local/share/ca-certificates", "/etc/pki/ca-trust/source/anchors",
    "/etc/ca-certificates/trust-source/anchors", "/etc/nginx/ssl", "/etc/nginx/certs",
    "/etc/apache2/ssl", "/etc/httpd/conf/ssl"]

/-- `scan_all_certs`. -/
def scanAllCerts (user password : String) : Look Value := do
  if ¬ (← which "openssl") then
    return .object [("error", .string "openssl not found"), ("certs", .array [])]
  else
    let live := "/etc/letsencrypt/live"
    if ← pathExists live then
      for domain in ← readDir live do
        let certPath := live ++ "/" ++ domain ++ "/fullchain.pem"
        if ← pathExists certPath then parseCert u certPath user password
    scanDirRecursive u "/etc/ssl" user password
    for dir in certDirs do
      if ← pathExists dir then
        for name in ← readDir dir do
          let path := dir ++ "/" ++ name
          if isCertificateFile name ∧ ¬ Text.startsWith path "/etc/ssl/" then
            parseCert u path user password
    answer

/-- The `open` of `certs.letsencrypt`. -/
def letsencryptInfo : Look Value := do
  if ¬ (← which "certbot") then
    let _ ← readFile "/etc/os-release"
    answer
  else
    let _ ← runCmd ["certbot", "--version"]
    let _ ← runCmd ["certbot", "certificates", "--non-interactive"]
    answer

/-! ## Security -/

/-- `resolve`: the directory that has the tool. -/
def resolve (cmd : String) : Look (Option {dir // dir ∈ searchDirs}) :=
  searchDirs.attach.findM? fun dir => pathExists (dir ++ "/" ++ cmd)

/-- `run_cmd_at`. -/
def runCmdAt (dir : {dir // dir ∈ searchDirs}) (cmd : String) (args : List String)
    (h : (searchDirs.all fun dir => observes (stripSudo ((dir ++ ("/" ++ cmd)) :: args))) = true :=
      by rfl) : Look String :=
  runCmd ((dir.1 ++ ("/" ++ cmd)) :: args) (List.all_eq_true.1 h dir.1 dir.2)

/-- `fail2ban_status`. -/
def fail2banStatus : Look Unit := do
  match ← resolve "fail2ban-client" with
  | none => return
  | some dir =>
    let _ ← runCmdAt dir "fail2ban-client" ["status"]
    for name in ← words do
      let _ ← runCmdAt dir "fail2ban-client" ["status", name]

/-- `selinux_status`. -/
def selinuxStatus : Look Unit := do
  match ← resolve "getenforce" with
  | none => return
  | some dir =>
    let _ ← runCmdAt dir "getenforce" []
    match ← resolve "sestatus" with
    | none => return
    | some dir =>
      let _ ← runCmdAt dir "sestatus" []

/-- `apparmor_status`. -/
def apparmorStatus : Look Unit := do
  match ← resolve "aa-status" with
  | none => return
  | some dir =>
    let _ ← runCmdAt dir "aa-status" ["--json"]
    let _ ← resolve "aa-complain"
    let _ ← resolve "aa-enforce"

/-- `security.status`. -/
def securityStatus (options : Value) : Look Value := do
  match strField options "query" with
  | "selinux_booleans" =>
    match ← resolve "getsebool" with
    | none => return .object [("booleans", .array [])]
    | some dir =>
      let _ ← runCmdAt dir "getsebool" ["-a"]
      answer
  | "selinux_denials" =>
    match ← resolve "journalctl" with
    | none => return .object [("denials", .array [])]
    | some dir =>
      let _ ← runCmdAt dir "journalctl" ["-b", "--no-pager", "-o", "short-iso", "--grep",
        "avc:.*denied"]
      answer
  | "selinux_modules" =>
    match ← resolve "semodule" with
    | none => return .object [("modules", .array [])]
    | some dir =>
      let _ ← runCmdAt dir "semodule" ["-l"]
      answer
  | _ =>
    fail2banStatus
    selinuxStatus
    apparmorStatus
    answer

/-- `superuser.verify`: whether `sudo` takes the password. -/
def superuserVerify (options : Value) : Look Value := do
  let password := strField options "password"
  let user := strField options "_user"
  if password = "" then return failedValue "password required"
  else if user = "" then return failedValue "no user context"
  else if ← perform (.isLockedOut user) then
    return failedValue "too many failed attempts, try again later"
  else
    let res ← sudoAsUser user password ["-v"]
    let ok := (res.get "ok").isSome
    if ok then perform (.clearFailures user) else perform (.recordFailure user)
    perform (.audit user "superuser.verify" "" ok "")
    if ok then return okValue
    else
      let err := ((res.get "error").bind Value.asStr).getD ""
      let incorrect := ["incorrect password", "Sorry, try again", "Authentication failure"]
      return failedValue
        (if incorrect.any (Text.contains err) then "incorrect password" else "sudo access denied")

end Tenodera.Agent.Host.Look

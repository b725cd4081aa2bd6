import Tenodera.Agent.FileOps

/-!
# The container handler

`container.manage`: the commands of a container runtime, as the agent or through `sudo`.  Every
action checks its own arguments, and none looks at the role.
-/

namespace Tenodera.Agent.Host

open Protocol Effect Path

variable (u : Text.Alphanumeric)

/-! ## Validation -/

/-- `is_valid_container_ref`. -/
def isValidContainerRef (id : String) : Bool :=
  id ≠ "" && id.utf8ByteSize ≤ 256 && !Text.startsWith id "-" &&
    id.toList.all fun c => u.mem c || c = '-' || c = '_' || c = '.'

/-- `is_valid_image_ref`. -/
def isValidImageRef (image : String) : Bool :=
  image ≠ "" && image.utf8ByteSize ≤ 512 && !Text.startsWith image "-" &&
    (image.toList.all fun c => u.mem c || "-_./: ".toList.contains c) && !Text.contains image ".."

/-- `qualify_image`. -/
def qualifyImage (image : String) : String :=
  let image := Text.trim image
  let first := String.ofList (image.toList.takeWhile fun c => c ≠ '/')
  let hasRegistry := Text.contains image "/" &&
    (Text.contains first "." || Text.contains first ":" || first = "localhost")
  if hasRegistry then image
  else if Text.contains image "/" then "docker.io/" ++ image
  else "docker.io/library/" ++ image

/-- `is_valid_restart_policy`. -/
def isValidRestartPolicy (policy : String) : Bool :=
  policy ∈ ["no", "always", "unless-stopped", "on-failure"] ||
    Text.startsWith policy "on-failure:" &&
      (Text.parseUnsigned 32 (String.ofList (policy.toList.drop 11))).isSome

def isValidNetworkDriver (driver : String) : Bool :=
  driver ∈ ["bridge", "overlay", "host", "none", "macvlan", "ipvlan", "null"]

def isValidCidr (cidr : String) : Bool :=
  cidr ≠ "" && cidr.utf8ByteSize ≤ 43 &&
    (cidr.toList.all fun c => c.isAlphanum || ".:/%".toList.contains c) &&
    Text.contains cidr "/" && !Text.startsWith cidr "/"

def isValidIp (ip : String) : Bool :=
  ip ≠ "" && ip.utf8ByteSize ≤ 39 && ip.toList.all fun c => c.isAlphanum || c = '.' || c = ':'

def isValidLabelKey (key : String) : Bool :=
  key ≠ "" && key.utf8ByteSize ≤ 128 && !Text.startsWith key "-" &&
    key.toList.all fun c => u.mem c || "-_./".toList.contains c

def isValidVolumeDriverName (driver : String) : Bool :=
  driver ≠ "" && driver.utf8ByteSize ≤ 64 && !Text.startsWith driver "-" &&
    driver.toList.all fun c => u.mem c || "-_.".toList.contains c

/-! ## Running the runtime -/

def runtimes : List String := ["docker", "podman"]

/-- Whether a command ends with success. -/
def succeeds (argv : List String) (stdin : Option String) : HostM Bool := do
  match ← run none argv stdin with
  | .error _ => return false
  | .ok out => return out.success

def infoArgs : List String := ["info", "--format", "\x7b\x7b.ID\x7d\x7d"]

/-- `detect_runtime`: a runtime that answers, or else one that is installed. -/
def detectRuntime : HostM (Option String) := do
  match ← runtimes.findM? fun rt => succeeds (rt :: infoArgs) none with
  | some rt => return some rt
  | none => runtimes.findM? fun rt => succeeds [rt, "--version"] none

/-- `detect_runtime_sudo`. -/
def detectRuntimeSudo (password : String) : HostM (Option String) :=
  runtimes.findM? fun rt => succeeds ("sudo" :: "-S" :: rt :: infoArgs) (some (password ++ "\n"))

/-- `run_cmd_result`: as the agent. -/
def runCmdResult (argv : List String) : HostM Value := do
  match ← run none argv none with
  | .error e => return errorValue e
  | .ok out =>
    if out.success then return okValue
    else
      let stderr := Text.trim out.stderr
      return errorValue (if stderr = "" then "command failed" else stderr)

/-- `run_sudo_cmd` and its kin: a read through `sudo`, as the agent. -/
def runSudo (password : String) (argv : List String) : HostM Unit := do
  let _ ← run none ("sudo" :: "-S" :: argv) (some (password ++ "\n"))

/-- A read as the user, or with a password through `sudo`. -/
def readRuntime (elevated : Bool) (user password : String) (argv : List String) : HostM Value := do
  if elevated then runSudo password argv
  else
    let _ ← runCmdAsUser user argv
  perform .json

/-- The lists that show the user's and, with a password, the root's objects. -/
def listMerged (user password : String) (argv : List String) : HostM Value := do
  let _ ← runCmdAsUser user argv
  if password ≠ "" then runSudo password argv
  perform .json

def jsonFormat : List String := ["--format", "\x7b\x7bjson .\x7d\x7d"]

/-! ## Actions -/

/-- The check of a reference, which comes before what is done with it. -/
def withRef (ref missing invalid : String) (valid : String → Bool) (act : HostM Value) :
    HostM Value :=
  if ref = "" then pure (errorValue missing)
  else if ¬ valid ref then pure (errorValue invalid)
  else act

/-- A write: on the objects of the root through `sudo`, on the others as the agent. -/
def ownedWrite (owner user password needed : String) (argv : List String) : HostM Value :=
  if owner = "root" then
    if password = "" then pure (errorValue needed) else sudoAsUser user password argv
  else runCmdResult argv

/-- A write: through `sudo` with a password, as the agent without. -/
def plainWrite (user password : String) (argv : List String) : HostM Value :=
  if password = "" then runCmdResult argv else sudoAsUser user password argv

/-- A write through `sudo` only. -/
def sudoWrite (user password : String) (argv : List String) : HostM Value :=
  if password = "" then pure (errorValue "password required") else sudoAsUser user password argv

def containerAction (rt action id owner user password : String) : HostM Value :=
  withRef id "no container id" "invalid container id" (isValidContainerRef u)
    (ownedWrite owner user password "password required for root containers"
      [rt, action, "--", id])

def forceFlag (force : Bool) : List String := if force then ["-f"] else []

def removeContainer (rt id : String) (force : Bool) (owner user password : String) : HostM Value :=
  withRef id "no container id" "invalid container id" (isValidContainerRef u)
    (ownedWrite owner user password "password required for root containers"
      ([rt, "rm"] ++ forceFlag force ++ ["--", id]))

def removeImage (rt id : String) (force : Bool) (owner user password : String) : HostM Value :=
  withRef id "no image id" "invalid image reference" (isValidImageRef u)
    (ownedWrite owner user password "password required for root images"
      ([rt, "rmi"] ++ forceFlag force ++ ["--", id]))

def volumeRemove (rt name owner user password : String) : HostM Value :=
  withRef name "no volume name" "invalid volume name" (isValidContainerRef u)
    (ownedWrite owner user password "password required for root volumes"
      [rt, "volume", "rm", "--", name])

def networkRemove (rt id owner user password : String) : HostM Value :=
  withRef id "no network id" "invalid network id" (isValidContainerRef u)
    (ownedWrite owner user password "password required for root networks"
      [rt, "network", "rm", "--", id])

/-- `inspect_container`, `volume_inspect`, `network_inspect` and `container_logs`. -/
def inspect (owner user password : String) (argv : List String) : HostM Value :=
  readRuntime (owner = "root" && password ≠ "") user password argv

def pullImage (rt image user password : String) : HostM Value :=
  withRef image "no image specified" "invalid image reference"
    (fun image => isValidImageRef u (qualifyImage image))
    (if password = "" then pure (errorValue "password required")
    else do
      let res ← sudoAsUser user password [rt, "pull", "--", qualifyImage image]
      if ← perform .verdict then
        return .object [("ok", .bool false), ("error", .string "pull timed out after 5 minutes"),
          ("action", .string "pull")]
      else return res)

/-! ## Creating a container -/

/-- Paths that must never be bind-mounted into containers. -/
def deniedVolumePaths : List String :=
  ["/", "/etc", "/proc", "/sys", "/dev", "/boot", "/root", "/var/run/docker.sock",
    "/run/docker.sock", "/var/run/podman", "/run/podman", "/var/lib/docker", "/var/lib/containers"]

def trimSlashes (path : List Char) : List Char := path.rdropWhile fun c => c = '/'

/-- The resolved path is a denied one or lies under it, whatever the case of its letters. -/
def isDenied (resolved : String) : Bool :=
  let normalized := (trimSlashes resolved.toList).map Char.toLower
  deniedVolumePaths.any fun denied =>
    let denied := (trimSlashes denied.toList).map Char.toLower
    normalized = denied || (denied ≠ [] && (denied ++ ['/']).isPrefixOf normalized)

/-- The part of `is_safe_volume_path` that looks at the text. -/
def isAbsoluteWithoutDots (path : String) : Bool :=
  path ≠ "" && Text.startsWith path "/" && !Text.contains path ".."

/-- `is_safe_volume_path`. -/
def isSafeVolumePath (path : String) : HostM Bool :=
  if ¬ isAbsoluteWithoutDots path then pure false
  else do
    match ← canonicalize path with
    | some resolved => return !isDenied (render resolved)
    | none => return !isDenied path

/-- The elements of an array field, as pairs of two of their text fields. -/
def pairsField (data : Value) (key first second : String) : List (String × String) :=
  (((data.get key).bind Value.asArray).getD []).map fun v => (strField v first, strField v second)

def nameArgs (data : Value) : Except String (List String) :=
  let name := strField data "name"
  if name = "" then .ok []
  else if ¬ isValidContainerRef u name then .error "invalid container name"
  else .ok ["--name", name]

/-- The ports that are given on both sides. -/
def ports (data : Value) : List (String × String) :=
  (pairsField data "ports" "host" "container").filter fun p => p.1 ≠ "" && p.2 ≠ ""

def isPort (port : String) : Bool := (Text.parseUnsigned 16 port).isSome

def portArgs (data : Value) : Except String (List String) :=
  match (ports data).find? fun p => !isPort p.1 || !isPort p.2 with
  | some p => .error ("invalid port: " ++ p.1 ++ ":" ++ p.2)
  | none => .ok ((ports data).flatMap fun p => ["-p", p.1 ++ ":" ++ p.2])

def envArgs (data : Value) : List String :=
  ((pairsField data "env" "key" "value").filter fun e => e.1 ≠ "").flatMap fun e =>
    ["-e", e.1 ++ "=" ++ e.2]

def volumes (data : Value) : List (String × String) :=
  (pairsField data "volumes" "host" "container").filter fun v => v.1 ≠ "" && v.2 ≠ ""

def volumeArgsOf : List (String × String) → HostM (Except String (List String))
  | [] => pure (.ok [])
  | v :: rest => do
    if ¬ (← isSafeVolumePath v.1) then return .error ("volume path denied: " ++ v.1)
    else
      match ← volumeArgsOf rest with
      | .error e => return .error e
      | .ok args => return .ok (["-v", v.1 ++ ":" ++ v.2] ++ args)

def restartArgs (data : Value) : Except String (List String) :=
  let restart := strField data "restart"
  if restart = "" then .ok []
  else if ¬ isValidRestartPolicy restart then .error ("invalid restart policy: " ++ restart)
  else .ok ["--restart", restart]

/-- `str::split_whitespace`. -/
def splitWhitespace (s : String) : List String :=
  ((s.toList.splitOnP Text.isWhitespace).filter fun w => w ≠ []).map String.ofList

/-- The command: the texts of an array, or the words of a text. -/
def commandArgs (data : Value) : List String :=
  match data.get "command" with
  | some (.array parts) => (parts.filterMap Value.asStr).filter fun part => part ≠ ""
  | some (.string cmd) => splitWhitespace cmd
  | _ => []

def createContainer (rt : String) (data : Value) (user password : String) : HostM Value :=
  withRef (strField data "image") "no image specified" "invalid image reference"
    (fun image => isValidImageRef u (qualifyImage image))
    (if password = "" then pure (errorValue "password required")
    else
      match nameArgs u data, portArgs data with
      | .error e, _ => pure (errorValue e)
      | .ok _, .error e => pure (errorValue e)
      | .ok name, .ok ports => do
        match ← volumeArgsOf (volumes data) with
        | .error e => return errorValue e
        | .ok volumes =>
          match restartArgs data with
          | .error e => return errorValue e
          | .ok restart =>
            sudoAsUser user password ([rt, "run", "-d"] ++ name ++ ports ++ envArgs data ++
              volumes ++ restart ++ ["--", qualifyImage (strField data "image")] ++
              commandArgs data))

/-! ## Volumes, networks and the service -/

/-- An option that is left out when it is empty. -/
def optionArg (data : Value) (key flag : String) (valid : String → Bool) (invalid : String) :
    Except String (List String) :=
  let value := strField data key
  if value = "" then .ok []
  else if ¬ valid value then .error invalid
  else .ok [flag, value]

def flagArg (data : Value) (key flag : String) : List String :=
  if ((data.get key).bind Value.asBool).getD false then [flag] else []

def labels (data : Value) : List (String × String) :=
  (pairsField data "labels" "key" "value").filter fun l => l.1 ≠ ""

def labelArgs (data : Value) : Except String (List String) :=
  match (labels data).find? fun l => !isValidLabelKey u l.1 with
  | some l => .error ("invalid label key: " ++ l.1)
  | none => .ok ((labels data).flatMap fun l => ["--label", l.1 ++ "=" ++ l.2])

/-- The arguments of `volume create`. -/
def volumeOptions (data : Value) : Except String (List String) := do
  let driver ← optionArg data "driver" "--driver" (isValidVolumeDriverName u)
    "invalid volume driver name"
  return driver ++ (← labelArgs u data)

/-- The arguments of `network create`. -/
def networkOptions (data : Value) : Except String (List String) := do
  let driver ← optionArg data "driver" "--driver" isValidNetworkDriver "invalid network driver"
  let subnet ← optionArg data "subnet" "--subnet" isValidCidr
    "invalid subnet — use CIDR, e.g. 192.168.1.0/24"
  let gateway ← optionArg data "gateway" "--gateway" isValidIp "invalid gateway IP address"
  return driver ++ subnet ++ gateway ++ flagArg data "internal" "--internal" ++
    flagArg data "ipv6" "--ipv6"

def volumeCreate (rt : String) (data : Value) (user password : String) : HostM Value :=
  withRef (strField data "name") "no volume name" "invalid volume name" (isValidContainerRef u)
    (match volumeOptions u data with
    | .error e => pure (errorValue e)
    | .ok options => plainWrite user password
      ([rt, "volume", "create"] ++ options ++ ["--name", strField data "name"]))

def networkCreate (rt : String) (data : Value) (user password : String) : HostM Value :=
  withRef (strField data "name") "no network name" "invalid network name" (isValidContainerRef u)
    (match networkOptions data with
    | .error e => pure (errorValue e)
    | .ok options => plainWrite user password
      ([rt, "network", "create"] ++ options ++ [strField data "name"]))

/-- `network_connect` and `network_disconnect`, by their verb. -/
def networkMember (rt verb network container user password : String) : HostM Value :=
  if ¬ isValidContainerRef u network then pure (errorValue "invalid network name")
  else if ¬ isValidContainerRef u container then pure (errorValue "invalid container id")
  else plainWrite user password [rt, "network", verb, "--", network, container]

def serviceName (rt : String) : String :=
  if rt = "podman" then "podman.socket" else "docker.service"

def serviceStatus (rt : String) : HostM Value := do
  let _ ← run none ["systemctl", "is-active", serviceName rt] none
  let _ ← run none ["systemctl", "is-enabled", serviceName rt] none
  perform .json

def serviceActionSudo (rt action user password : String) : HostM Value :=
  sudoWrite user password ["systemctl", action, serviceName rt]

/-! ## The handler -/

/-- `open`: the runtime and the state of its service. -/
def containerOpen : HostM Value := do
  match ← detectRuntime with
  | none => perform .json
  | some rt =>
    let _ ← run none [rt, "version", "--format", "json"] none
    serviceStatus rt

def boolField (data : Value) (key : String) : Bool := ((data.get key).bind Value.asBool).getD false

def ownerField (data : Value) (default : String) : String :=
  ((data.get "owner").bind Value.asStr).getD default

/-- The number of lines of `logs`. -/
def tailField (data : Value) : String :=
  String.ofList (Nat.toDigits 10 (((data.get "tail").bind Value.asU64).getD 100).toNat)

/-- The actions of `data`. -/
def containerDispatch (rt : String) (data : Value) : HostM Value :=
  let action := strField data "action"
  let user := strField data "_user"
  let password := strField data "password"
  let id := strField data "id"
  let name := strField data "name"
  match action with
  | "list_containers" => listMerged user password
    ([rt, "ps", "-a"] ++ jsonFormat ++ ["--no-trunc"])
  | "list_images" => listMerged user password ([rt, "images"] ++ jsonFormat ++ ["--no-trunc"])
  | "inspect" => withRef id "no container id" "invalid container id" (isValidContainerRef u)
    (inspect (ownerField data "user") user password [rt, "inspect", "--", id])
  | "start" | "stop" | "restart" =>
    containerAction u rt action id (ownerField data "root") user password
  | "remove" =>
    removeContainer u rt id (boolField data "force") (ownerField data "root") user password
  | "remove_image" =>
    removeImage u rt id (boolField data "force") (ownerField data "root") user password
  | "pull" => pullImage u rt (strField data "image") user password
  | "create" => createContainer u rt data user password
  | "logs" => withRef id "no container id" "invalid container id" (isValidContainerRef u)
    (inspect (ownerField data "user") user password
      [rt, "logs", "--tail", tailField data, "--timestamps", "--", id])
  | "service_status" => serviceStatus rt
  | "service_start" => serviceActionSudo rt "start" user password
  | "service_stop" => serviceActionSudo rt "stop" user password
  | "service_restart" => serviceActionSudo rt "restart" user password
  | "stats_all" => readRuntime (password ≠ "") user password
    ([rt, "stats", "--no-stream"] ++ jsonFormat)
  | "volumes_list" => listMerged user password ([rt, "volume", "ls"] ++ jsonFormat)
  | "volume_inspect" => withRef name "no volume name" "invalid volume name" (isValidContainerRef u)
    (inspect (ownerField data "user") user password [rt, "volume", "inspect", "--", name])
  | "volume_create" => volumeCreate u rt data user password
  | "volume_remove" => volumeRemove u rt name (ownerField data "user") user password
  | "volume_prune" => plainWrite user password [rt, "volume", "prune", "-f"]
  | "networks_list" => listMerged user password ([rt, "network", "ls"] ++ jsonFormat)
  | "network_inspect" => withRef id "no network id" "invalid network id" (isValidContainerRef u)
    (inspect (ownerField data "user") user password [rt, "network", "inspect", "--", id])
  | "network_create" => networkCreate u rt data user password
  | "network_connect" => networkMember u rt "connect" (strField data "network")
    (strField data "container") user password
  | "network_disconnect" => networkMember u rt "disconnect" (strField data "network")
    (strField data "container") user password
  | "network_remove" => networkRemove u rt id (ownerField data "user") user password
  | "network_prune" => plainWrite user password [rt, "network", "prune", "--force"]
  | "container_prune" => plainWrite user password [rt, "container", "prune", "-f"]
  | "image_prune" => plainWrite user password [rt, "image", "prune", "-f"]
  | "system_prune" => sudoWrite user password [rt, "system", "prune", "-f"]
  | _ => pure
    (.object [("type", .string "error"), ("error", .string ("unknown action: " ++ action))])

/-- The actions that leave an entry in the audit log. -/
def auditedActions : List String :=
  ["start", "stop", "restart", "remove", "remove_image", "pull", "create", "volume_create",
    "volume_remove", "volume_prune", "network_create", "network_connect", "network_disconnect",
    "network_remove", "network_prune", "container_prune", "image_prune", "system_prune",
    "service_start", "service_stop", "service_restart"]

/-- The target of the audit entry: the first of the three fields that is there. -/
def auditTarget (data : Value) : String :=
  ((data.get "id" <|> data.get "name" <|> data.get "image").bind Value.asStr).getD ""

def auditAction (data result : Value) : HostM Unit :=
  let action := strField data "action"
  if action ∈ auditedActions then
    perform (.audit (strField data "_user") ("container." ++ action) (auditTarget data)
      (result.get "error").isNone "")
  else pure ()

/-- The runtime through `sudo`, if there is a password. -/
def elevatedRuntime (password : String) : HostM (Option String) :=
  if password = "" then pure none else detectRuntimeSudo password

/-- `data`. -/
def containerData (data : Value) : HostM Value := do
  let action := strField data "action"
  let userRt ← detectRuntime
  let sudoRt ← elevatedRuntime (strField data "password")
  match userRt <|> sudoRt with
  | none =>
    return .object [("type", .string "error"), ("action", .string action),
      ("error", .string "No container runtime found")]
  | some rt =>
    let result ← containerDispatch u rt data
    auditAction data result
    return .object [("type", .string "response"), ("action", .string action), ("data", result)]

end Tenodera.Agent.Host

import Mathlib.Data.List.Lookmap
import Tenodera.Lib.Cell
import Tenodera.Lib.Text

/-!
# The hosts file

`hosts.json` and the operations on it.  Each operation loads the whole file, decides from the
loaded configuration, and possibly saves a whole new configuration; it is given here by its
`Cell.Plan`.  `HostsOp` collects the seven operations, and `HostsOp.run` carries one out against a
file and an answer of the file system.
-/

namespace Tenodera.Gateway

open Cell

structure HostEntry where
  id : String
  name : String
  /-- System hostname reported by the agent in Hello. -/
  hostname : String
  /-- Ed25519 public key (base64, 32 bytes); `none` for legacy entries. -/
  publicKey : Option String
  addedAt : String
  isLocal : Bool
  displayName : Option String
  lastSeen : Option String
  osId : Option String
  deriving DecidableEq, Repr

structure HostsConfig where
  hosts : List HostEntry
  deriving DecidableEq, Repr

/-- What `hosts.json` is to its readers. -/
inductive HostsFile
  | absent
  /-- `read_to_string` fails with anything but a missing file. -/
  | unreadable
  /-- Readable text that does not decode: empty, cut short, or not a configuration. -/
  | malformed
  | json (config : HostsConfig)
  deriving DecidableEq, Repr

/-- `load`: every failure to read or to decode gives the default configuration. -/
def load : HostsFile → HostsConfig
  | .json config => config
  | .absent | .unreadable | .malformed => ⟨[]⟩

/-- How the file system takes the non-atomic write of `save`: it goes through, it is refused before
the file is opened, or it breaks off after the file was truncated. -/
inductive WriteOutcome
  | done
  | refused
  | interrupted
  deriving DecidableEq, Repr

/-- Errors of the fallible operations. -/
inductive HostsError
  | message (text : String)
  /-- The I/O error of `save`. -/
  | save
  deriving DecidableEq, Repr

inductive StatusCode
  | noContent
  | badRequest
  | notFound
  | internalServerError
  deriving DecidableEq, Repr

/-! ## Look-ups -/

def findById (config : HostsConfig) (hostId : String) : Option HostEntry :=
  config.hosts.find? fun h => h.id = hostId

def findByPubkey (config : HostsConfig) (pubkeyB64 : String) : Option HostEntry :=
  config.hosts.find? fun h => h.publicKey = some pubkeyB64

def findByHostname (config : HostsConfig) (hostname : String) : Option HostEntry :=
  config.hosts.find? fun h => h.hostname = hostname

/-- The configuration with the first entry of that id rewritten: what an assignment through
`hosts.iter_mut().find(|h| h.id == host_id)` does. -/
def modifyHost (config : HostsConfig) (hostId : String) (f : HostEntry → HostEntry) : HostsConfig :=
  ⟨config.hosts.lookmap fun h => if h.id = hostId then some (f h) else none⟩

/-! ## Operations -/

def updateLastSeen (hostId now : String) (config : HostsConfig) : Plan HostsConfig Unit :=
  match findById config hostId with
  | some _ => .write (modifyHost config hostId fun h => { h with lastSeen := some now }) () ()
  | none => .answer ()

/-- `register_host`; `id` is the fresh uuid and `now` the time stamp. -/
def registerHost (id now hostname pubkeyB64 : String) (isLocal : Bool)
    (displayName osId : Option String) (config : HostsConfig) :
    Plan HostsConfig (Except HostsError HostEntry) :=
  let entry : HostEntry :=
    { id, name := hostname, hostname, publicKey := some pubkeyB64, addedAt := now, isLocal,
      displayName, lastSeen := none, osId }
  .write ⟨config.hosts ++ [entry]⟩ (.ok entry) (.error .save)

/-- `update_os_id`: written only when absent. -/
def updateOsId (hostId osId : String) (config : HostsConfig) : Plan HostsConfig Unit :=
  match findById config hostId with
  | some h =>
    if h.osId = none then
      .write (modifyHost config hostId fun h => { h with osId := some osId }) () ()
    else .answer ()
  | none => .answer ()

/-- `replace_pubkey`: the other fields of the entry are preserved. -/
def replacePubkey (hostId newPubkeyB64 : String) (config : HostsConfig) :
    Plan HostsConfig (Except HostsError HostEntry) :=
  match findById config hostId with
  | some h =>
    .write (modifyHost config hostId fun h => { h with publicKey := some newPubkeyB64 })
      (.ok { h with publicKey := some newPubkeyB64 }) (.error .save)
  | none => .answer (.error (.message ("host " ++ hostId ++ " not found")))

theorem replacePubkey_of_none {hostId key : String} {config : HostsConfig}
    (h : findById config hostId = none) : replacePubkey hostId key config =
      .answer (.error (.message ("host " ++ hostId ++ " not found"))) := by
  simp [replacePubkey, h]

theorem replacePubkey_of_some {hostId : String} (key : String) {config : HostsConfig}
    {h : HostEntry} (hh : findById config hostId = some h) : replacePubkey hostId key config =
      .write (modifyHost config hostId fun h => { h with publicKey := some key })
        (.ok { h with publicKey := some key }) (.error .save) := by
  simp [replacePubkey, hh]

def saveDisplayName (hostId : String) (displayName : Option String) (config : HostsConfig) :
    Plan HostsConfig (Except HostsError Unit) :=
  match findById config hostId with
  | some _ =>
    .write (modifyHost config hostId fun h => { h with displayName }) (.ok ()) (.error .save)
  | none => .answer (.ok ())

/-- `DELETE /api/hosts/{id}`, past the `AdminAuth` extractor. -/
def hostsRemove (id : String) (config : HostsConfig) : Plan HostsConfig StatusCode :=
  let hosts := config.hosts.filter fun h => h.id ≠ id
  if hosts.length = config.hosts.length then .answer .notFound
  else .write ⟨hosts⟩ .noContent .internalServerError

def maxDisplayNameLen : ℕ := 128

/-- `PATCH /api/hosts/{id}`, past the `AdminAuth` extractor: the name is trimmed, bounded in
characters, and cleared when empty. -/
def hostsPatch (id : String) (displayName : Option String) (config : HostsConfig) :
    Plan HostsConfig StatusCode :=
  if (displayName.map fun n => (Text.trim n).length).getD 0 > maxDisplayNameLen then
    .answer .badRequest
  else
    let displayName := (displayName.map Text.trim).filter fun t => t ≠ ""
    match findById config id with
    | some _ =>
      .write (modifyHost config id fun h => { h with displayName }) .noContent .internalServerError
    | none => .answer .notFound

/-- The operations on the hosts file, with what each call is given. -/
inductive HostsOp
  | registerHost (id now hostname pubkeyB64 : String) (isLocal : Bool)
      (displayName osId : Option String)
  | replacePubkey (hostId newPubkeyB64 : String)
  | updateOsId (hostId osId : String)
  | updateLastSeen (hostId now : String)
  | saveDisplayName (hostId : String) (displayName : Option String)
  | hostsRemove (id : String)
  | hostsPatch (id : String) (displayName : Option String)
  deriving DecidableEq, Repr

inductive Reply
  | unit
  | entry (result : Except HostsError HostEntry)
  | result (result : Except HostsError Unit)
  | status (code : StatusCode)
  deriving DecidableEq

def HostsOp.plan : HostsOp → HostsConfig → Plan HostsConfig Reply
  | .registerHost id now hostname pubkeyB64 isLocal displayName osId, config =>
    (Gateway.registerHost id now hostname pubkeyB64 isLocal displayName osId config).map
      (fun c => c) .entry
  | .replacePubkey hostId newPubkeyB64, config =>
    (Gateway.replacePubkey hostId newPubkeyB64 config).map (fun c => c) .entry
  | .updateOsId hostId osId, config =>
    (Gateway.updateOsId hostId osId config).map (fun c => c) fun _ => .unit
  | .updateLastSeen hostId now, config =>
    (Gateway.updateLastSeen hostId now config).map (fun c => c) fun _ => .unit
  | .saveDisplayName hostId displayName, config =>
    (Gateway.saveDisplayName hostId displayName config).map (fun c => c) .result
  | .hostsRemove id, config => (Gateway.hostsRemove id config).map (fun c => c) .status
  | .hostsPatch id displayName, config =>
    (Gateway.hostsPatch id displayName config).map (fun c => c) .status

/-! ## An operation against the file -/

/-- Load, plan, and save with the given answer of the file system. -/
def commit {ρ : Type} (plan : HostsConfig → Plan HostsConfig ρ) (out : WriteOutcome)
    (file : HostsFile) : ρ × HostsFile :=
  match plan (load file) with
  | .answer reply => (reply, file)
  | .write config saved failed =>
    match out with
    | .done => (saved, .json config)
    | .refused => (failed, file)
    | .interrupted => (failed, .malformed)

def HostsOp.run (op : HostsOp) : WriteOutcome → HostsFile → Reply × HostsFile := commit op.plan

section commit

variable {ρ : Type} {plan : HostsConfig → Plan HostsConfig ρ} {out : WriteOutcome}
  {file : HostsFile} {config : HostsConfig} {reply saved failed : ρ}

theorem commit_of_answer (h : plan (load file) = .answer reply) :
    commit plan out file = (reply, file) := by
  simp [commit, h]

theorem commit_done (h : plan (load file) = .write config saved failed) :
    commit plan .done file = (saved, .json config) := by
  simp [commit, h]

theorem commit_refused (h : plan (load file) = .write config saved failed) :
    commit plan .refused file = (failed, file) := by
  simp [commit, h]

theorem commit_interrupted (h : plan (load file) = .write config saved failed) :
    commit plan .interrupted file = (failed, .malformed) := by
  simp [commit, h]

end commit

/-! ## What a write leaves in the file -/

section modifyHost

variable {config : HostsConfig} {hostId : String} {f : HostEntry → HostEntry}

/-- A rewriting that keeps a field keeps the column of that field. -/
theorem map_modifyHost {β : Type} (g : HostEntry → β) (hg : ∀ h, g (f h) = g h) :
    (modifyHost config hostId f).hosts.map g = config.hosts.map g := by
  refine List.lookmap_map_eq _ g (fun a b hb => ?_) _
  rw [Option.mem_def] at hb
  split_ifs at hb
  cases hb
  exact (hg a).symm

theorem modifyHost_cons (a : HostEntry) (as : List HostEntry) :
    (modifyHost ⟨a :: as⟩ hostId f).hosts =
      if a.id = hostId then f a :: as else a :: (modifyHost ⟨as⟩ hostId f).hosts := by
  unfold modifyHost
  dsimp only
  rw [List.lookmap_cons]
  split_ifs <;> rfl

end modifyHost

end Tenodera.Gateway

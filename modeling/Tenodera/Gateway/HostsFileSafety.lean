import Mathlib.Data.List.Permutation
import Tenodera.Gateway.HostsConfig

/-!
# Lost hosts and lost updates

Two ways in which `hosts.json` can lose what was put into it.  A single operation started on a file
that cannot be read works on the default configuration, and a save that breaks off leaves an
undecodable file; `keepsHosts_iff` says exactly when neither happens.  Concurrent operations load
and save the whole file without a lock; `hosts_serializable` is the guarantee that remains when no
save overwrites a file it has not seen.
-/

namespace Tenodera.Gateway

open Cell Transition

def HostsConfig.ids (config : HostsConfig) : List String := config.hosts.map (·.id)

theorem findById_isSome_iff {config : HostsConfig} {id : String} :
    (findById config id).isSome ↔ id ∈ config.ids := by
  simp [findById, HostsConfig.ids, List.find?_isSome]

/-! ## One operation against a file -/

/-- `enrolled` can be the ids of the hosts enrolled so far: a readable file has an entry for each
of them, and a file that cannot be read says nothing. -/
def Describes (enrolled : List String) : HostsFile → Prop
  | .json config => ∀ id ∈ enrolled, id ∈ config.ids
  | .absent | .unreadable | .malformed => True

/-- The file is left as it was, or it is a configuration with every enrolled host other than the
one removed. -/
def KeepsHosts (op : HostsOp) (enrolled : List String) (file file' : HostsFile) : Prop :=
  file' = file ∨
    ∃ config, file' = .json config ∧ ∀ id ∈ enrolled, op ≠ .hostsRemove id → id ∈ config.ids

/-- The uuid drawn for a new host is not in use. -/
def HostsOp.FreshId (enrolled : List String) : HostsOp → Prop
  | .registerHost id .. => id ∉ enrolled
  | _ => True

/-- The operation finds what it has to change, and goes on to save. -/
def HostsOp.Saves (config : HostsConfig) : HostsOp → Prop
  | .registerHost .. => True
  | .replacePubkey hostId _ | .updateLastSeen hostId _ | .saveDisplayName hostId _ |
    .hostsRemove hostId => hostId ∈ config.ids
  | .updateOsId hostId _ => ∃ h, findById config hostId = some h ∧ h.osId = none
  | .hostsPatch id displayName =>
    id ∈ config.ids ∧ (displayName.map fun n => (Text.trim n).length).getD 0 ≤ maxDisplayNameLen

/-- The circumstances in which an operation loses no host: it saves nothing, or the write is refused
outright, or it goes through over a file that could be read (or when there is no host to lose), or
it breaks off over a file that was undecodable already. -/
def HostsOp.Harmless (op : HostsOp) (enrolled : List String) (file : HostsFile)
    (out : WriteOutcome) : Prop :=
  op.Saves (load file) →
    match out with
    | .refused => True
    | .done => (∃ config, file = .json config) ∨ enrolled = []
    | .interrupted => file = .malformed

/-- What an operation does with the configuration it loaded: it saves exactly when it has something
to change, and what it saves keeps every id but the one it removes. -/
theorem HostsOp.plan_cases (op : HostsOp) (config : HostsConfig) :
    (¬ op.Saves config ∧ ∃ reply, op.plan config = .answer reply) ∨
      (op.Saves config ∧ ∃ config' saved failed, op.plan config = .write config' saved failed ∧
        ∀ id ∈ config.ids, op ≠ .hostsRemove id → id ∈ config'.ids) := by
  have missing {hostId : String} (h : findById config hostId = none) : hostId ∉ config.ids := by
    rw [← findById_isSome_iff, h]
    simp
  have found {hostId : String} {h : HostEntry} (hh : findById config hostId = some h) :
      hostId ∈ config.ids := by
    rw [← findById_isSome_iff, hh]
    rfl
  have keep (hostId : String) (f : HostEntry → HostEntry) (hf : ∀ h, (f h).id = h.id) :
      ∀ id ∈ config.ids, id ∈ (modifyHost config hostId f).ids := by
    intro id h
    rwa [HostsConfig.ids, map_modifyHost _ hf]
  cases op with
  | registerHost id now hostname pubkeyB64 isLocal displayName osId =>
    refine Or.inr ⟨trivial, _, _, _, rfl, fun id' h _ => ?_⟩
    simp only [HostsConfig.ids, List.map_append, List.mem_append]
    exact Or.inl h
  | replacePubkey hostId newPubkeyB64 =>
    simp only [HostsOp.plan, Gateway.replacePubkey, Plan.map]
    rcases hh : findById config hostId with _ | h
    · exact Or.inl ⟨missing hh, _, rfl⟩
    · exact Or.inr ⟨found hh, _, _, _, rfl, fun id hid _ => keep _ _ (by simp) id hid⟩
  | updateOsId hostId osId =>
    simp only [HostsOp.plan, Gateway.updateOsId, Plan.map, Saves]
    rcases hh : findById config hostId with _ | h
    · exact Or.inl ⟨by simp, _, rfl⟩
    · by_cases ho : h.osId = none
      · simp only [ho, if_true]
        exact Or.inr ⟨⟨h, rfl, ho⟩, _, _, _, rfl, fun id hid _ => keep _ _ (by simp) id hid⟩
      · simp only [ho, if_false]
        exact Or.inl ⟨by simp [ho], _, rfl⟩
  | updateLastSeen hostId now =>
    simp only [HostsOp.plan, Gateway.updateLastSeen, Plan.map]
    rcases hh : findById config hostId with _ | h
    · exact Or.inl ⟨missing hh, _, rfl⟩
    · exact Or.inr ⟨found hh, _, _, _, rfl, fun id hid _ => keep _ _ (by simp) id hid⟩
  | saveDisplayName hostId displayName =>
    simp only [HostsOp.plan, Gateway.saveDisplayName, Plan.map]
    rcases hh : findById config hostId with _ | h
    · exact Or.inl ⟨missing hh, _, rfl⟩
    · exact Or.inr ⟨found hh, _, _, _, rfl, fun id hid _ => keep _ _ (by simp) id hid⟩
  | hostsRemove id =>
    simp only [HostsOp.plan, Gateway.hostsRemove, Plan.map]
    by_cases hl : (config.hosts.filter fun h => h.id ≠ id).length = config.hosts.length
    · rw [if_pos hl]
      refine Or.inl ⟨fun hid => ?_, _, rfl⟩
      obtain ⟨h, hm, he⟩ := List.mem_map.1 hid
      have := List.length_filter_eq_length_iff.1 hl h hm
      simp [he] at this
    · rw [if_neg hl]
      refine Or.inr ⟨?_, _, _, _, rfl, fun id' hid hne => ?_⟩
      · by_contra hid
        refine hl (List.length_filter_eq_length_iff.2 fun h hm => ?_)
        simpa using fun he => hid (List.mem_map.2 ⟨h, hm, he⟩)
      · obtain ⟨h, hm, rfl⟩ := List.mem_map.1 hid
        refine List.mem_map.2 ⟨h, List.mem_filter.2 ⟨hm, ?_⟩, rfl⟩
        simpa using fun he => hne (by rw [he])
  | hostsPatch id displayName =>
    simp only [HostsOp.plan, Gateway.hostsPatch, Plan.map, Saves]
    by_cases hn : (displayName.map fun n => (Text.trim n).length).getD 0 > maxDisplayNameLen
    · rw [if_pos hn]
      exact Or.inl ⟨fun h => absurd h.2 (by omega), _, rfl⟩
    · rw [if_neg hn]
      rcases hh : findById config id with _ | h
      · exact Or.inl ⟨fun h => missing hh h.1, _, rfl⟩
      · exact Or.inr ⟨⟨found hh, by omega⟩, _, _, _, rfl,
          fun id hid _ => keep _ _ (by simp) id hid⟩

/-- Only an enrolment saves a configuration loaded from a file without hosts. -/
theorem HostsOp.Saves.exists_registerHost {op : HostsOp} (h : op.Saves ⟨[]⟩) :
    ∃ id now hostname pubkeyB64 isLocal displayName osId,
      op = .registerHost id now hostname pubkeyB64 isLocal displayName osId := by
  cases op <;> simp [Saves, HostsConfig.ids, findById] at h
  exact ⟨_, _, _, _, _, _, _, rfl⟩

/-- An enrolment over a file without hosts leaves the new host alone in it. -/
theorem HostsOp.ids_of_registerHost {id now hostname pubkeyB64 : String} {isLocal : Bool}
    {displayName osId : Option String} {config' : HostsConfig} {saved failed : Reply}
    (h : (registerHost id now hostname pubkeyB64 isLocal displayName osId).plan ⟨[]⟩ =
      .write config' saved failed) : config'.ids = [id] := by
  simp only [plan, Gateway.registerHost, Plan.map, Plan.write.injEq] at h
  rw [← h.1]
  rfl

/-- An operation loses no host exactly in the harmless circumstances. -/
theorem keepsHosts_iff (op : HostsOp) (enrolled : List String) (file : HostsFile)
    (out : WriteOutcome) (hd : Describes enrolled file) (hfresh : op.FreshId enrolled) :
    KeepsHosts op enrolled file (op.run out file).2 ↔ op.Harmless enrolled file out := by
  rcases op.plan_cases (load file) with ⟨hs, reply, hp⟩ | ⟨hs, config', saved, failed, hp, hk⟩
  · rw [HostsOp.run, commit_of_answer hp]
    exact iff_of_true (Or.inl rfl) fun h => absurd h hs
  · simp only [HostsOp.Harmless, hs, true_imp_iff]
    cases out with
    | refused =>
      rw [HostsOp.run, commit_refused hp]
      exact iff_of_true (Or.inl rfl) trivial
    | interrupted =>
      rw [HostsOp.run, commit_interrupted hp]
      simp [KeepsHosts, eq_comm]
    | done =>
      rw [HostsOp.run, commit_done hp]
      constructor
      · rintro (h | ⟨c, hc, hids⟩)
        · exact Or.inl ⟨config', h.symm⟩
        · cases hc
          rcases file with _ | _ | _ | config
          case json => exact Or.inl ⟨config, rfl⟩
          all_goals
            obtain ⟨id, now, hostname, pubkey, isLocal, displayName, osId, rfl⟩ :=
              HostsOp.Saves.exists_registerHost hs
            have hone := HostsOp.ids_of_registerHost hp
            refine Or.inr (List.eq_nil_iff_forall_not_mem.2 fun e he => hfresh ?_)
            have := hids e he (by simp)
            rw [hone, List.mem_singleton] at this
            rwa [← this]
      · rintro (⟨config, rfl⟩ | rfl)
        · exact Or.inr ⟨config', rfl, fun id h hne => hk id (hd id h) hne⟩
        · exact Or.inr ⟨config', rfl, by simp⟩

/-- An enrolled host, for the concrete runs. -/
def dbHost : HostEntry where
  id := "h1"
  name := "db"
  hostname := "db"
  publicKey := some "K1"
  addedAt := "2026-07-01T00:00:00Z"
  isLocal := false
  displayName := none
  lastSeen := none
  osId := none

/-- The enrolment of a second host. -/
def enrolWeb : HostsOp :=
  .registerHost "h2" "2026-07-02T00:00:00Z" "web" "K2" false none none

theorem keepsHosts_enrolWeb :
    KeepsHosts enrolWeb ["h1"] (.json ⟨[dbHost]⟩) (enrolWeb.run .done (.json ⟨[dbHost]⟩)).2 :=
  (keepsHosts_iff enrolWeb ["h1"] (.json ⟨[dbHost]⟩) .done
    (show ∀ id ∈ ["h1"], id ∈ HostsConfig.ids ⟨[dbHost]⟩ by decide)
    (show "h2" ∉ ["h1"] by decide)).2 fun _ => Or.inl ⟨_, rfl⟩

/-- Over a file left cut short by an earlier write, the enrolment succeeds and the host enrolled
before is gone. -/
theorem enrolWeb_loses_host :
    Describes ["h1"] .malformed ∧
      (enrolWeb.run .done .malformed).2 = .json ⟨[⟨"h2", "web", "web", some "K2",
        "2026-07-02T00:00:00Z", false, none, none, none⟩]⟩ ∧
      ¬ KeepsHosts enrolWeb ["h1"] .malformed (enrolWeb.run .done .malformed).2 := by
  have hrun : (enrolWeb.run .done .malformed).2 = .json ⟨[⟨"h2", "web", "web", some "K2",
      "2026-07-02T00:00:00Z", false, none, none, none⟩]⟩ := rfl
  refine ⟨trivial, hrun, ?_⟩
  rw [hrun]
  rintro (h | ⟨config, h, hk⟩)
  · cases h
  · cases h
    exact absurd (hk "h1" (by simp) (by decide)) (by decide)

/-! ## Concurrent operations -/

section

variable {ι : Type*} (ops : ι → HostsOp)

/-- An operation as a task on the shared file. -/
def HostsOp.task (i : ι) (file : HostsFile) : Plan HostsFile Reply :=
  ((ops i).plan (load file)).map .json fun reply => reply

/-- Carried out on the spot, a task is the operation with a write that goes through. -/
theorem HostsOp.exec_task (i : ι) (file : HostsFile) :
    (HostsOp.task ops i file).exec file = (ops i).run .done file := by
  rcases hp : (ops i).plan (load file) with reply | ⟨config, saved, failed⟩
  · simp [HostsOp.task, hp, Plan.map, Plan.exec, HostsOp.run, commit]
  · simp [HostsOp.task, hp, Plan.map, Plan.exec, HostsOp.run, commit]

/-- The file is what the operations that took effect leave when run one after the other from
`start` in some order, with the replies they gave. -/
def SerialOutcome (start : HostsFile) (st : State ι HostsFile Reply) : Prop :=
  Serializable (HostsOp.task ops) start st

variable [DecidableEq ι]

/-- Whatever the interleaving of loads and saves, no update is lost when every save that goes
through finds the file as its operation had loaded it. -/
theorem hosts_serializable (start : HostsFile) (as : List (Action ι))
    (st : State ι HostsFile Reply)
    (hr : run (step (HostsOp.task ops)) (.init start) as = some st)
    (hf : Meets (step (HostsOp.task ops)) Fresh (.init start) as) : SerialOutcome ops start st :=
  serializable_of_fresh hr hf

end

/-- Operation 0 records the disconnection of a host, every other one replaces its key. -/
def disconnectAndRekey : ℕ → HostsOp
  | 0 => .updateLastSeen "h1" "2026-07-03T00:00:00Z"
  | _ => .replacePubkey "h1" "K9"

theorem disconnectAndRekey_serial :
    ∃ st, run (step (HostsOp.task disconnectAndRekey)) (.init (.json ⟨[dbHost]⟩))
        [.load 0, .save 0 true, .load 1, .save 1 true] = some st ∧
      SerialOutcome disconnectAndRekey (.json ⟨[dbHost]⟩) st := by
  exact ⟨_, rfl, hosts_serializable _ _ [.load 0, .save 0 true, .load 1, .save 1 true] _ rfl
    (by decide)⟩

/-- The clean-up of the old connection loads the file before the key is replaced and saves it
afterwards: the replacement was answered with success, and the file has the old key again. -/
theorem disconnectAndRekey_lost_update :
    ∃ st, run (step (HostsOp.task disconnectAndRekey)) (.init (.json ⟨[dbHost]⟩))
        [.load 0, .load 1, .save 1 true, .save 0 true] = some st ∧
      st.completed = [(1, .entry (.ok { dbHost with publicKey := some "K9" })), (0, .unit)] ∧
      st.cell = .json ⟨[{ dbHost with lastSeen := some "2026-07-03T00:00:00Z" }]⟩ ∧
      ¬ SerialOutcome disconnectAndRekey (.json ⟨[dbHost]⟩) st := by
  refine ⟨_, rfl, rfl, rfl, ?_⟩
  have orders : ∀ order ∈ List.permutations'
      [(1, .entry (.ok { dbHost with publicKey := some "K9" })), (0, .unit)],
      ¬ Replays (HostsOp.task disconnectAndRekey) (.json ⟨[dbHost]⟩) order
        (.json ⟨[{ dbHost with lastSeen := some "2026-07-03T00:00:00Z" }]⟩) := by
    decide
  rintro ⟨order, hp, hr⟩
  exact orders order (List.mem_permutations'.2 hp) hr

end Tenodera.Gateway

import Mathlib.Data.List.Nodup
import Tenodera.Gateway.HostsConfig

/-!
# Who is enrolled

Of the hosts file, trust depends on three columns only: the id, the hostname and the key of every
entry.  An operation that is saved atomically enrols an identity, rekeys one, removes one, or leaves
them all alone.
-/

namespace Tenodera.Gateway

/-- What an entry of the hosts file says about who the host is. -/
structure Identity where
  id : String
  hostname : String
  publicKey : Option String
  deriving DecidableEq, Repr

def HostEntry.identity (h : HostEntry) : Identity := ⟨h.id, h.hostname, h.publicKey⟩

/-- The identities in the file. -/
def identities (file : HostsFile) : List Identity := (load file).hosts.map HostEntry.identity

/-- The identities with the key of `id` replaced. -/
def rekey (id key : String) (l : List Identity) : List Identity :=
  l.lookmap fun e => if e.id = id then some { e with publicKey := some key } else none

/-- The key stored for `id`, if there is an entry for it. -/
def keyOf (l : List Identity) (id : String) : Option (Option String) :=
  (l.find? fun e => e.id = id).map (·.publicKey)

/-- How an atomic save ends. -/
def WriteOutcome.ofSaved (saved : Bool) : WriteOutcome := if saved then .done else .refused

@[simp]
theorem WriteOutcome.ofSaved_true : ofSaved true = .done := rfl

@[simp]
theorem WriteOutcome.ofSaved_false : ofSaved false = .refused := rfl

/-! ## Look-ups -/

theorem keyOf_identities (file : HostsFile) (id : String) :
    keyOf (identities file) id = (findById (load file) id).map (·.publicKey) := by
  simp only [keyOf, identities, findById, List.find?_map, Option.map_map]
  rfl

theorem findByPubkey_eq_none {file : HostsFile} {key : String} :
    findByPubkey (load file) key = none ↔ ∀ e ∈ identities file, e.publicKey ≠ some key := by
  simp [findByPubkey, identities, HostEntry.identity]

theorem findByHostname_eq_none {file : HostsFile} {hostname : String} :
    findByHostname (load file) hostname = none ↔ ∀ e ∈ identities file, e.hostname ≠ hostname := by
  simp [findByHostname, identities, HostEntry.identity]

theorem findByHostname_some {file : HostsFile} {hostname : String} {h : HostEntry}
    (hh : findByHostname (load file) hostname = some h) :
    h.identity ∈ identities file ∧ h.hostname = hostname :=
  ⟨List.mem_map_of_mem (List.mem_of_find?_eq_some hh), by simpa using List.find?_some hh⟩

/-! ## Replacing a key -/

section rekey

variable {id key : String}

theorem rekey_cons (e : Identity) (l : List Identity) :
    rekey id key (e :: l) =
      if e.id = id then { e with publicKey := some key } :: l else e :: rekey id key l := by
  unfold rekey
  rw [List.lookmap_cons]
  split_ifs <;> rfl

theorem map_rekey {β : Type} (g : Identity → β)
    (hg : ∀ e : Identity, g { e with publicKey := some key } = g e) (l : List Identity) :
    (rekey id key l).map g = l.map g := by
  refine List.lookmap_map_eq _ g (fun a b hb => ?_) _
  rw [Option.mem_def] at hb
  split_ifs at hb
  cases hb
  exact (hg a).symm

theorem rekey_of_forall_ne {l : List Identity} (h : ∀ e ∈ l, e.id ≠ id) : rekey id key l = l := by
  induction l with
  | nil => rfl
  | cons e l ih =>
    rw [rekey_cons, if_neg (h e List.mem_cons_self)]
    rw [ih fun e' he' => h e' (List.mem_cons_of_mem e he')]

theorem keyOf_rekey (l : List Identity) (id' : String) :
    keyOf (rekey id key l) id' =
      if id' = id then (keyOf l id').map fun _ => some key else keyOf l id' := by
  unfold keyOf
  induction l with
  | nil => simp [rekey]
  | cons e l ih =>
    rw [rekey_cons]
    by_cases h₁ : e.id = id
    · rw [if_pos h₁]
      by_cases h₂ : e.id = id'
      · simp [h₂, h₂.symm.trans h₁]
      · have hne : id' ≠ id := fun h => h₂ (h₁.trans h.symm)
        simp [h₂, hne]
    · rw [if_neg h₁]
      by_cases h₂ : e.id = id'
      · have hne : id' ≠ id := fun h => h₁ (h₂.trans h)
        simp [h₂, hne]
      · simpa [h₂] using ih

end rekey

theorem keyOf_append_of_some {l : List Identity} {id : String} {key : Option String}
    (h : keyOf l id = some key) (l' : List Identity) : keyOf (l ++ l') id = some key := by
  obtain ⟨e, he, hk⟩ := Option.map_eq_some_iff.1 h
  simp [keyOf, List.find?_append, he, hk]

theorem keyOf_filter (l : List Identity) (removed id : String) :
    keyOf (l.filter fun e => e.id ≠ removed) id = if id = removed then none else keyOf l id := by
  unfold keyOf
  rw [List.find?_filter]
  by_cases h : id = removed
  · subst h
    simp
  · rw [if_neg h]
    congr 2
    funext e
    by_cases he : e.id = id
    · simp [he, h]
    · simp [he]

theorem map_identity_modifyHost (config : HostsConfig) (id key : String) :
    (modifyHost config id fun h => { h with publicKey := some key }).hosts.map HostEntry.identity =
      rekey id key (config.hosts.map HostEntry.identity) := by
  obtain ⟨hosts⟩ := config
  induction hosts with
  | nil => rfl
  | cons h hosts ih =>
    rw [modifyHost_cons, List.map_cons, rekey_cons]
    by_cases hid : h.id = id
    · rw [if_pos hid, if_pos (show h.identity.id = id from hid)]
      rfl
    · rw [if_neg hid, if_neg (show ¬ h.identity.id = id from hid), List.map_cons, ih]

/-! ## What the operations do -/

section operations

variable (saved : Bool) (file : HostsFile)

theorem identities_modifyHost (hostId : String) (f : HostEntry → HostEntry)
    (hf : ∀ h, (f h).identity = h.identity) :
    identities (.json (modifyHost (load file) hostId f)) = identities file :=
  map_modifyHost _ hf

/-- An operation that, when it writes, writes the same identities. -/
theorem identities_commit {ρ : Type} {plan : HostsConfig → Cell.Plan HostsConfig ρ}
    (h : ∀ config saved failed, plan (load file) = .write config saved failed →
      identities (.json config) = identities file) :
    identities (commit plan (.ofSaved saved) file).2 = identities file := by
  rcases hp : plan (load file) with reply | ⟨config, ok, failed⟩
  · rw [commit_of_answer hp]
  · cases saved with
    | false => rw [WriteOutcome.ofSaved_false, commit_refused hp]
    | true =>
      rw [WriteOutcome.ofSaved_true, commit_done hp]
      exact h _ _ _ hp

theorem identities_updateOsId (hostId osId : String) :
    identities (commit (updateOsId hostId osId) (.ofSaved saved) file).2 = identities file := by
  refine identities_commit saved file fun config ok failed h => ?_
  unfold updateOsId at h
  split at h
  · split_ifs at h
    cases h
    exact identities_modifyHost file hostId _ fun _ => rfl
  · cases h

theorem identities_updateLastSeen (hostId now : String) :
    identities (commit (updateLastSeen hostId now) (.ofSaved saved) file).2 = identities file := by
  refine identities_commit saved file fun config ok failed h => ?_
  unfold updateLastSeen at h
  split at h
  · cases h
    exact identities_modifyHost file hostId _ fun _ => rfl
  · cases h

theorem identities_saveDisplayName (hostId : String) (displayName : Option String) :
    identities (commit (saveDisplayName hostId displayName) (.ofSaved saved) file).2 =
      identities file := by
  refine identities_commit saved file fun config ok failed h => ?_
  unfold saveDisplayName at h
  split at h
  · cases h
    exact identities_modifyHost file hostId _ fun _ => rfl
  · cases h

theorem identities_hostsPatch (id : String) (displayName : Option String) :
    identities (commit (hostsPatch id displayName) (.ofSaved saved) file).2 = identities file := by
  refine identities_commit saved file fun config ok failed h => ?_
  unfold hostsPatch at h
  split_ifs at h
  split at h
  · cases h
    exact identities_modifyHost file id _ fun _ => rfl
  · cases h

theorem identities_replacePubkey (hostId key : String) :
    identities (commit (replacePubkey hostId key) (.ofSaved saved) file).2 =
      if saved then rekey hostId key (identities file) else identities file := by
  rcases hh : findById (load file) hostId with _ | h
  · have hne : ∀ e ∈ identities file, e.id ≠ hostId := by
      simpa [findById, identities, HostEntry.identity] using hh
    rw [commit_of_answer (replacePubkey_of_none hh), rekey_of_forall_ne hne, ite_self]
  · have hp := replacePubkey_of_some key hh
    cases saved with
    | false => rw [WriteOutcome.ofSaved_false, commit_refused hp, if_neg (by decide)]
    | true =>
      rw [WriteOutcome.ofSaved_true, commit_done hp, if_pos rfl]
      exact map_identity_modifyHost _ _ _

theorem identities_registerHost (id now hostname key : String) (isLocal : Bool)
    (displayName osId : Option String) :
    identities (commit (registerHost id now hostname key isLocal displayName osId)
        (.ofSaved saved) file).2 =
      if saved then identities file ++ [⟨id, hostname, some key⟩] else identities file := by
  cases saved with
  | false => rfl
  | true => exact List.map_append

theorem identities_hostsRemove (id : String) :
    identities (commit (hostsRemove id) (.ofSaved saved) file).2 =
      if saved then (identities file).filter fun e => e.id ≠ id else identities file := by
  have hmap : (identities file).filter (fun e => e.id ≠ id) =
      ((load file).hosts.filter fun h => h.id ≠ id).map HostEntry.identity := by
    rw [identities, List.filter_map]
    rfl
  by_cases hl : ((load file).hosts.filter fun h => h.id ≠ id).length = (load file).hosts.length
  · have hp : hostsRemove id (load file) = .answer .notFound := by
      simp only [hostsRemove, if_pos hl]
    rw [commit_of_answer hp, hmap, List.filter_eq_self.2 (List.length_filter_eq_length_iff.1 hl)]
    exact (ite_self _).symm
  · have hp : hostsRemove id (load file) =
        .write ⟨(load file).hosts.filter fun h => h.id ≠ id⟩ .noContent .internalServerError := by
      simp only [hostsRemove, if_neg hl]
    cases saved with
    | false => rw [WriteOutcome.ofSaved_false, commit_refused hp, if_neg (by decide)]
    | true =>
      rw [WriteOutcome.ofSaved_true, commit_done hp, if_pos rfl, hmap]
      rfl

end operations

end Tenodera.Gateway

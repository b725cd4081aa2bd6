import Tenodera.Gateway.Enrollment
import Tenodera.Lib.Run

/-!
# One entry per hostname, one entry per key

Every path of authentication checks the presented key and the hostname against the file before it
enrols a host or replaces a key.  The approval of a pending agent looks at the hostname only, long
after the other checks were made; `uniqueHosts_iff` says that this is the one way to a repeated key.
-/

namespace Tenodera.Gateway.Enrollment

open Transition

/-- At most one entry per hostname and at most one entry per public key. -/
def UniqueHosts (config : HostsConfig) : Prop :=
  (config.hosts.map (·.hostname)).Nodup ∧ (config.hosts.filterMap (·.publicKey)).Nodup

/-- An approval that is saved finds the key of the waiting agent at no entry but one of the agent's
own hostname. -/
def KeyIsFree (s : State) : Action → Prop
  | .approve fingerprintHex _ _ saved _ =>
    saved → ∀ e ∈ s.pending.entryForFingerprint fingerprintHex,
      ∀ h ∈ (load s.file).hosts, h.publicKey = some e.pubkeyB64 → h.hostname = e.hostname
  | _ => True

instance (s : State) (a : Action) : Decidable (KeyIsFree s a) := by
  rcases a <;> dsimp only [KeyIsFree] <;> infer_instance

/-! ## Lists of identities -/

/-- Two identities that can be enrolled side by side. -/
def Differ (a b : Identity) : Prop :=
  a.hostname ≠ b.hostname ∧ ∀ key, a.publicKey = some key → b.publicKey ≠ some key

instance : Std.Symm Differ :=
  ⟨fun _ _ h => ⟨h.1.symm, fun key hb ha => h.2 key ha hb⟩⟩

theorem uniqueHosts_iff_pairwise (file : HostsFile) :
    UniqueHosts (load file) ↔ (identities file).Pairwise Differ := by
  simp only [UniqueHosts, identities, List.Nodup, List.pairwise_map, List.pairwise_filterMap,
    ← List.pairwise_and_iff]
  refine List.Pairwise.iff fun a b => and_congr_right fun _ => ?_
  exact ⟨fun h key ha hb => h key ha key hb rfl, fun h k ha k' hb e => h k ha (e ▸ hb)⟩

section

variable {l : List Identity} {id hostname key : String}

theorem rekey_eq_map (hids : (l.map (·.id)).Nodup) : rekey id key l =
    l.map fun e => if e.id = id then { e with publicKey := some key } else e := by
  induction l with
  | nil => rfl
  | cons e l ih =>
    rw [List.map_cons, List.nodup_cons] at hids
    rw [rekey_cons, List.map_cons, ← ih hids.2]
    split_ifs with he
    · rw [rekey_of_forall_ne fun e' he' h => hids.1 ?_]
      rw [he, ← h]
      exact List.mem_map_of_mem he'
    · rfl

/-- Replacing the key of an entry keeps the list free of repetitions iff no other entry has the
key. -/
theorem pairwise_rekey_iff {e : Identity} (hids : (l.map (·.id)).Nodup)
    (hl : l.Pairwise Differ) (he : e ∈ l) :
    (rekey e.id key l).Pairwise Differ ↔
      ∀ e' ∈ l, e'.publicKey = some key → e'.hostname = e.hostname := by
  rw [rekey_eq_map hids]
  constructor
  · intro h e' he' hkey
    by_contra hne
    have hid : e'.id ≠ e.id := fun hid => hne (by rw [List.inj_on_of_nodup_map hids he' he hid])
    have hdiffer := h.forall (List.mem_map_of_mem he') (List.mem_map_of_mem he)
    simp only [if_neg hid, if_true] at hdiffer
    exact (hdiffer fun h => hne (by rw [h])).2 key hkey rfl
  · intro h
    rw [List.pairwise_map]
    refine (hl.and (List.pairwise_map.1 hids)).imp_of_mem fun {a b} ha hb hab => ?_
    obtain ⟨⟨hhost, hkeys⟩, hid⟩ := hab
    split_ifs with h₁ h₂ h₂
    · exact absurd (h₁.trans h₂.symm) hid
    · refine ⟨hhost, fun k hk hk' => hhost ?_⟩
      cases hk
      rw [List.inj_on_of_nodup_map hids ha he h₁, h b hb hk']
    · refine ⟨hhost, fun k hk hk' => hhost ?_⟩
      cases hk'
      rw [List.inj_on_of_nodup_map hids hb he h₂, h a ha hk]
    · exact ⟨hhost, hkeys⟩

theorem pairwise_append_iff (hl : l.Pairwise Differ)
    (hn : ∀ e ∈ l, e.hostname ≠ hostname) :
    List.Pairwise Differ (l ++ [⟨id, hostname, some key⟩]) ↔
      ∀ e ∈ l, e.publicKey = some key → e.hostname = hostname := by
  rw [List.pairwise_append]
  constructor
  · rintro ⟨-, -, h⟩ e he hkey
    exact absurd rfl ((h e he _ (List.mem_singleton_self _)).2 key hkey)
  · refine fun h => ⟨hl, List.pairwise_singleton _ _, fun e he e' he' => ?_⟩
    rw [List.mem_singleton] at he'
    subst he'
    refine ⟨hn e he, fun k hk hk' => hn e he (h e he ?_)⟩
    rw [hk]
    exact hk'.symm

end

/-! ## Steps and runs -/

section

variable {hashes : Hashes} {s t : State} {a : Action}

/-- The ids in the file are distinct. -/
def IdsDistinct (s : State) : Prop := ((identities s.file).map (·.id)).Nodup

theorem nodup_ids_enrolled {l : List Identity} {uuid hostname key : String}
    (hI : (l.map (·.id)).Nodup) (fresh : uuid ∉ l.map (·.id)) :
    (List.map Identity.id (l ++ [⟨uuid, hostname, some key⟩])).Nodup := by
  rw [List.map_append]
  exact List.Nodup.append hI (List.nodup_singleton _) (by simpa using fresh)

theorem nodup_ids_approved {fingerprintHex : String} {draw : Draw} {saved : Bool}
    (hI : IdsDistinct s) (fresh : draw.uuid ∉ (identities s.file).map (·.id)) :
    ((approvedIdentities fingerprintHex draw saved s).map (·.id)).Nodup := by
  unfold approvedIdentities
  split
  · exact hI
  · split_ifs
    · split
      · rw [map_rekey _ fun _ => rfl]
        exact hI
      · exact nodup_ids_enrolled hI fresh
    · exact hI

theorem idsDistinct_step (hI : IdsDistinct s) (h : Effect s t a) : IdsDistinct t := by
  unfold IdsDistinct
  cases h with
  | quiet _ hids => rwa [hids]
  | registered _ _ _ _ hfile | unregistered _ _ hfile => rwa [hfile]
  | hello fresh peer stores _ =>
    cases stores with
    | kept hids => rwa [hids]
    | enrolled _ _ hids =>
      rw [hids]
      exact nodup_ids_enrolled hI fresh
    | rekeyed existing _ _ hids =>
      rw [hids, map_rekey _ fun _ => rfl]
      exact hI
  | approved fresh hids =>
    rw [hids]
    exact nodup_ids_approved hI fresh
  | removed hids =>
    rw [hids]
    split_ifs
    · exact hI.sublist (List.filter_sublist.map _)
    · exact hI

theorem forall_hosts_iff {file : HostsFile} {key hostname : String} :
    (∀ h ∈ (load file).hosts, h.publicKey = some key → h.hostname = hostname) ↔
      ∀ e ∈ identities file, e.publicKey = some key → e.hostname = hostname := by
  simp [identities, HostEntry.identity]

theorem pairwise_approved_iff {fingerprintHex : String} {displayName : Option String} {draw : Draw}
    {saved nameSaved : Bool} (hI : IdsDistinct s) (hP : (identities s.file).Pairwise Differ) :
    (approvedIdentities fingerprintHex draw saved s).Pairwise Differ ↔
      KeyIsFree s (.approve fingerprintHex displayName draw saved nameSaved) := by
  simp only [KeyIsFree, forall_hosts_iff, approvedIdentities]
  rcases s.pending.entryForFingerprint fingerprintHex with _ | e
  · simpa using hP
  · cases saved with
    | false => simpa using hP
    | true =>
      simp only [if_true, Option.mem_def, Option.some.injEq, forall_eq', true_imp_iff]
      rcases hn : findByHostname (load s.file) e.hostname with _ | existing
      · exact pairwise_append_iff hP (findByHostname_eq_none.1 hn)
      · obtain ⟨hmem, hhost⟩ := findByHostname_some hn
        rw [← hhost]
        exact pairwise_rekey_iff hI hP hmem

theorem uniqueHosts_step (hI : IdsDistinct s) (hP : UniqueHosts (load s.file))
    (h : Effect s t a) : UniqueHosts (load t.file) ↔ KeyIsFree s a := by
  rw [uniqueHosts_iff_pairwise] at hP ⊢
  cases h with
  | quiet ha hids =>
    rw [hids]
    exact iff_of_true hP (by cases a <;> trivial)
  | registered _ _ _ _ hfile | unregistered _ _ hfile =>
    rw [hfile]
    exact iff_of_true hP trivial
  | hello fresh peer stores _ =>
    refine iff_of_true ?_ trivial
    cases stores with
    | kept hids => rwa [hids]
    | enrolled newKey newHostname hids =>
      rw [hids, pairwise_append_iff hP (findByHostname_eq_none.1 newHostname)]
      exact fun e he hkey => absurd hkey (findByPubkey_eq_none.1 newKey e he)
    | rekeyed existing newKey hostname hids =>
      rw [hids]
      refine (pairwise_rekey_iff hI hP (findByHostname_some hostname).1).2 fun e he hkey => ?_
      exact absurd hkey (findByPubkey_eq_none.1 newKey e he)
  | approved _ hids =>
    rw [hids]
    exact pairwise_approved_iff hI hP
  | removed hids =>
    rw [hids]
    refine iff_of_true ?_ trivial
    split_ifs
    · exact hP.sublist List.filter_sublist
    · exact hP

/-- Starting without hosts, every run keeps hostnames and keys free of repetitions exactly when
every approval finds the key of the waiting agent free. -/
theorem uniqueHosts_iff (hashes : Hashes) (file : HostsFile) (as : List Action) (t : State)
    (hfile : (load file).hosts = []) (hr : run (step hashes) (.init file) as = some t) :
    Always (step hashes) (fun s => UniqueHosts (load s.file)) (.init file) as ↔
      Meets (step hashes) KeyIsFree (.init file) as :=
  always_iff_meets (I := IdsDistinct)
    (fun _ _ _ hI h => idsDistinct_step hI (step_effect h))
    (fun _ _ _ hI hP h => uniqueHosts_step hI hP (step_effect h))
    (by simp [IdsDistinct, State.init, identities, hfile])
    (by simp [UniqueHosts, State.init, hfile]) hr

end

/-- An agent of another address waits for approval under its own key, and is approved after the
actions in between. -/
def approveLate (between : List Action) : List Action :=
  [.hello 0 (agentHello "web" "K1") "203.0.113.7" true ⟨"h1", "t0"⟩ true, .enterPending 0] ++
    between ++ [.approve "K1" none ⟨"h3", "t2"⟩ true true]

theorem uniqueHosts_approveLate :
    ∃ t, run (step plainHashes) (.init .absent) (approveLate []) = some t ∧
      Always (step plainHashes) (fun s => UniqueHosts (load s.file)) (.init .absent)
        (approveLate []) :=
  ⟨_, rfl, (uniqueHosts_iff plainHashes .absent (approveLate []) _ rfl rfl).2 (by decide)⟩

/-- While the agent waits under one hostname, it enrols with the same key under another one: the
approval then gives the key a second entry. -/
theorem approval_repeats_key :
    ∃ t, run (step plainHashes) (.init .absent)
        (approveLate [.hello 1 (agentHello "db" "K1") "127.0.0.1" true ⟨"h2", "t1"⟩ true]) =
          some t ∧
      (load t.file).hosts.map (fun h => (h.id, h.hostname, h.publicKey)) =
        [("h2", "db", some "K1"), ("h3", "web", some "K1")] ∧
      ¬ UniqueHosts (load t.file) := by
  refine ⟨_, rfl, rfl, fun h => ?_⟩
  have hkeys : ¬ ["K1", "K1"].Nodup := by decide
  exact hkeys h.2

end Tenodera.Gateway.Enrollment

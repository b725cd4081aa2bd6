import Tenodera.Gateway.Enrollment
import Tenodera.Lib.Table

/-!
# What a bootstrap token is used up for

A token is counted as used when it is looked at, before the path of authentication is decided and
before the hosts file is written.  `sparesTokens_iff` lists the agents that are turned away at the
cost of a token.
-/

namespace Tenodera.Gateway.Enrollment

/-- Every token is there as before, with the same use count. -/
def SameUses (s t : BootstrapRegistry) : Prop :=
  ∀ id, (t.lookup id).map (·.useCount) = (s.lookup id).map (·.useCount)

/-- The token of that value, when it is valid for the hostname. -/
def usableToken (hashes : Hashes) (now : ℕ) (tokenVal hostname : String)
    (tokens : BootstrapRegistry) : Option BootstrapToken :=
  ((tokens.entries.find? fun t => t.2.valueDigest = hashes.tokenDigest tokenVal).map (·.2)).filter
    fun token => token.isValidFor hostname now

/-- An agent that is not authenticated leaves every token as it was. -/
def SparesTokens (hashes : Hashes) (now : ℕ) (draw : Draw) (saved : Bool) (peer : Peer)
    (bootstrapToken : Option String) (isLocal : Bool) (s : Stores) : Prop :=
  let result := resolveAuthPath hashes now draw saved peer bootstrapToken isLocal s
  (∀ host, result.1 ≠ .authenticated host) → SameUses s.tokens result.2.tokens

/-- The key is known, or the agent presents no usable token, or its token can do what it is
presented for (enrol a new hostname, or replace the key of a known one) and the hosts file is
saved. -/
def TokenServes (hashes : Hashes) (now : ℕ) (saved : Bool) (peer : Peer)
    (bootstrapToken : Option String) (s : Stores) : Prop :=
  (findByPubkey (load s.file) peer.publicKey).isSome ∨
    ∀ tokenVal ∈ bootstrapToken, ∀ token ∈ usableToken hashes now tokenVal peer.hostname s.tokens,
      ((findByHostname (load s.file) peer.hostname).isSome → token.reEnroll) ∧ saved

/-! ## The use of a token -/

theorem sameUses_refl (s : BootstrapRegistry) : SameUses s s := fun _ => rfl

/-- A counted use shows, whether the token is kept or removed. -/
theorem not_sameUses_of_counted {tokens : BootstrapRegistry} {key : String}
    {token used : BootstrapToken} (hget : tokens.lookup key = some token)
    (hused : used.useCount = token.useCount + 1) (removed : String → Bool)
    (t : BootstrapRegistry) (ht : ∀ id, t.lookup id =
      if removed id then none else (tokens.insert key used).lookup id) :
    ¬ SameUses tokens t := by
  intro h
  have hkey := h key
  rw [ht, hget, AList.lookup_insert] at hkey
  split_ifs at hkey with hgone
  · cases hkey
  · have hcount : used.useCount = token.useCount := Option.some.inj hkey
    rw [hused] at hcount
    simp at hcount

section

variable {hashes : Hashes} {now : ℕ} {tokenVal hostname : String} {tokens : BootstrapRegistry}

/-- A value without a usable token is refused and changes nothing. -/
theorem validateAndConsume_of_none
    (h : usableToken hashes now tokenVal hostname tokens = none) :
    tokens.validateAndConsume hashes now tokenVal hostname = (none, tokens) := by
  unfold BootstrapRegistry.validateAndConsume
  unfold usableToken at h
  dsimp only
  rcases hfind : tokens.entries.find? fun t => t.2.valueDigest = hashes.tokenDigest tokenVal with
    _ | ⟨key, token⟩
  · rw [hfind]
  · rw [hfind, Option.map_some, Option.filter_eq_none_iff] at h
    have hinvalid : ¬ token.isValidFor hostname now := h token rfl
    rw [hfind]
    dsimp only
    rw [if_pos hinvalid]

/-- A usable token is accepted, and its use is counted. -/
theorem validateAndConsume_of_some {token : BootstrapToken}
    (h : usableToken hashes now tokenVal hostname tokens = some token) :
    ∃ t, tokens.validateAndConsume hashes now tokenVal hostname = (some token.reEnroll, t) ∧
      ¬ SameUses tokens t := by
  obtain ⟨hfound, hvalid⟩ := Option.filter_eq_some_iff.1 h
  obtain ⟨⟨key, token'⟩, hfind, rfl⟩ := Option.map_eq_some_iff.1 hfound
  have hget : tokens.lookup key = some token' :=
    AList.mem_lookup_iff.2 (List.mem_of_find?_eq_some hfind)
  unfold BootstrapRegistry.validateAndConsume
  dsimp only at hvalid ⊢
  rw [hfind]
  dsimp only
  rw [if_neg (not_not_intro hvalid)]
  set used : BootstrapToken := { token' with useCount := token'.useCount + 1 }
  have hcount : used.useCount = token'.useCount + 1 := rfl
  split_ifs
  · refine ⟨_, rfl, not_sameUses_of_counted hget hcount (fun id => id = token'.id) _ fun id => ?_⟩
    by_cases hid : id = token'.id
    · subst hid
      simp
    · simp [hid, AList.lookup_erase_ne]
  · refine ⟨_, rfl, not_sameUses_of_counted hget hcount (fun _ => false) _ fun id => ?_⟩
    simp

end

/-! ## The paths -/

section

variable {hashes : Hashes} {now : ℕ} {draw : Draw} {saved isLocal : Bool} {peer : Peer}
  {bootstrapToken : Option String} {s : Stores}

/-- Enrolment takes no token, and fails exactly when the file is not saved. -/
theorem enrol_path (draw : Draw) (saved isLocal : Bool) (peer : Peer) (s : Stores) :
    (enrol draw saved peer isLocal s).2.tokens = s.tokens ∧
      ((∃ host, (enrol draw saved peer isLocal s).1 = .authenticated host) ↔ saved) := by
  cases saved with
  | false => exact ⟨rfl, iff_of_false nofun nofun⟩
  | true => exact ⟨rfl, iff_of_true ⟨_, rfl⟩ rfl⟩

/-- An entry found by its hostname is found by its id. -/
theorem findById_of_findByHostname {config : HostsConfig} {hostname : String}
    {existing : HostEntry} (h : findByHostname config hostname = some existing) :
    ∃ host, findById config existing.id = some host := by
  refine Option.isSome_iff_exists.1 (List.find?_isSome.2 ?_)
  exact ⟨existing, List.mem_of_find?_eq_some h, decide_eq_true rfl⟩

theorem reEnrol_path (saved : Bool) {existing : HostEntry} (s : Stores)
    (h : findByHostname (load s.file) peer.hostname = some existing) :
    (reEnrol saved peer existing s).2.tokens = s.tokens ∧
      ((∃ host, (reEnrol saved peer existing s).1 = .authenticated host) ↔ saved) := by
  obtain ⟨host, hhost⟩ := findById_of_findByHostname h
  have hplan := replacePubkey_of_some peer.publicKey hhost
  unfold reEnrol
  cases saved with
  | false =>
    rw [WriteOutcome.ofSaved_false, commit_refused hplan]
    exact ⟨rfl, iff_of_false nofun nofun⟩
  | true =>
    rw [WriteOutcome.ofSaved_true, commit_done hplan]
    exact ⟨rfl, iff_of_true ⟨_, rfl⟩ rfl⟩

/-- A path that succeeds exactly on `served`, after the use of a token, spares tokens exactly
then. -/
theorem spares_iff_served {tokens : BootstrapRegistry} {result : AuthPath × Stores} {served : Prop}
    (hspent : ¬ SameUses s.tokens tokens) (htokens : result.2.tokens = tokens)
    (hserved : (∃ host, result.1 = .authenticated host) ↔ served) :
    ((∀ host, result.1 ≠ .authenticated host) → SameUses s.tokens result.2.tokens) ↔ served := by
  rw [htokens, ← hserved]
  constructor
  · intro h
    by_contra hnone
    exact hspent (h fun host hhost => hnone ⟨host, hhost⟩)
  · rintro ⟨host, hhost⟩ h
    exact absurd hhost (h host)

/-- A path that takes no token spares tokens. -/
theorem spares_of_untaken {result : AuthPath × Stores} (h : result.2.tokens = s.tokens) :
    (∀ host, result.1 ≠ .authenticated host) → SameUses s.tokens result.2.tokens := by
  intro _
  rw [h]
  exact sameUses_refl s.tokens

end

/-- An agent that is not authenticated leaves every token as it was exactly when it has presented no
usable token or one that serves its purpose, which includes the write of the hosts file. -/
theorem sparesTokens_iff (hashes : Hashes) (now : ℕ) (draw : Draw) (saved : Bool) (peer : Peer)
    (bootstrapToken : Option String) (isLocal : Bool) (s : Stores) :
    SparesTokens hashes now draw saved peer bootstrapToken isLocal s ↔
      TokenServes hashes now saved peer bootstrapToken s := by
  unfold SparesTokens TokenServes resolveAuthPath
  rcases hkey : findByPubkey (load s.file) peer.publicKey with _ | host
  swap
  · exact iff_of_true (spares_of_untaken rfl) (.inl rfl)
  rcases bootstrapToken with _ | tokenVal
  · refine iff_of_true ?_ (.inr nofun)
    rcases findByHostname (load s.file) peer.hostname with _ | existing
    · dsimp only
      split_ifs
      · exact spares_of_untaken (enrol_path _ _ _ _ s).1
      · exact spares_of_untaken rfl
    · exact spares_of_untaken rfl
  rcases htoken : usableToken hashes now tokenVal peer.hostname s.tokens with _ | token
  · have hrefused := validateAndConsume_of_none htoken
    refine iff_of_true ?_ (.inr fun v hv token' htoken' => ?_)
    · rcases findByHostname (load s.file) peer.hostname with _ | existing
      · dsimp only
        rw [hrefused]
        exact spares_of_untaken rfl
      · dsimp only
        rw [hrefused]
        exact spares_of_untaken rfl
    · cases hv
      rw [htoken] at htoken'
      cases htoken'
  · obtain ⟨tokens, hused, hspent⟩ := validateAndConsume_of_some htoken
    rcases hname : findByHostname (load s.file) peer.hostname with _ | existing
    · dsimp only
      rw [hused]
      obtain ⟨htokens, hserved⟩ := enrol_path draw saved isLocal peer { s with tokens }
      rw [spares_iff_served hspent htokens hserved]
      simp [htoken]
    · dsimp only
      rw [hused]
      cases hre : token.reEnroll with
      | false =>
        have hrejected : ¬ ∃ host, AuthPath.reject = .authenticated host := nofun
        rw [spares_iff_served hspent rfl (iff_of_false hrejected not_false)]
        simp [htoken, hre]
      | true =>
        have hpath := reEnrol_path saved { s with tokens } hname
        rw [spares_iff_served hspent hpath.1 hpath.2]
        simp [htoken, hre]

/-! ## A token used up in vain -/

/-- A host "web" with another key, and a token for one new host. -/
def rebuiltStores : Stores where
  file := .json ⟨[⟨"h1", "web", "web", some "K0", "t0", false, none, none, none⟩]⟩
  registry := ∅
  tokens := BootstrapRegistry.create plainHashes 0 60 "T" "secret" true none none false ∅
  history := []

/-- The agent of a rebuilt "web" is rejected, and the token is gone. -/
theorem rebuilt_spends_token :
    (resolveAuthPath plainHashes 0 ⟨"h2", "t1"⟩ true ⟨"web", "K1", none, "203.0.113.7"⟩
      (some "secret") false rebuiltStores).1 = .reject ∧
    ¬ SparesTokens plainHashes 0 ⟨"h2", "t1"⟩ true ⟨"web", "K1", none, "203.0.113.7"⟩
      (some "secret") false rebuiltStores := by
  have hrejected : (resolveAuthPath plainHashes 0 ⟨"h2", "t1"⟩ true
      ⟨"web", "K1", none, "203.0.113.7"⟩ (some "secret") false rebuiltStores).1 = .reject := by
    decide
  refine ⟨hrejected, fun h => ?_⟩
  have hgone := h (fun host hhost => nomatch hrejected.symm.trans hhost) "T"
  revert hgone
  decide

end Tenodera.Gateway.Enrollment

import Tenodera.Gateway.Enrollment
import Tenodera.Lib.IpAddr

/-!
# The address of a client behind the reverse proxy

The gateway listens on loopback behind a reverse proxy, and takes a client's address from the
`X-Forwarded-For` header of the proxy.  The address counts failed logins and waiting agents, and
decides which agents are enrolled as local.  `attributed_iff` says which headers of a client leave
its address what it is, behind a proxy that appends the address to what the client sends.
-/

namespace Tenodera.Gateway

/-- The headers of a request in order, with their names in lower case. -/
abbrev HeaderMap : Type := List (String × List UInt8)

namespace HeaderMap

/-- `HeaderMap::get`: the first value of that name. -/
def get (headers : HeaderMap) (name : String) : Option (List UInt8) :=
  (headers.find? fun h => h.1 = name).map (·.2)

def isVisible (b : UInt8) : Bool := (32 ≤ b && b < 127) || b = 9

def text (value : List UInt8) : String := String.ofList (value.map fun b => Char.ofNat b.toNat)

/-- `HeaderValue::to_str`. -/
def toStr (value : List UInt8) : Option String :=
  if value.all isVisible then some (text value) else none

end HeaderMap

open HeaderMap (toStr text isVisible)

/-- `split(',').next()`, which always gives a part. -/
def firstPart (s : String) : String := String.ofList (s.toList.takeWhile fun c => c ≠ ',')

def xForwardedFor : String := "x-forwarded-for"

def xRealIp : String := "x-real-ip"

/-- The address that a value of `X-Forwarded-For` begins with. -/
def forwardedIp (value : List UInt8) : Option IpAddr :=
  (toStr value).bind fun xff => IpAddr.parse (Text.trim (firstPart xff))

/-- The address in `X-Real-IP`. -/
def realIp (headers : HeaderMap) : Option IpAddr :=
  ((headers.get xRealIp).bind toStr).bind fun xri => IpAddr.parse (Text.trim xri)

def realClientIp (peer : IpAddr) (headers : HeaderMap) : IpAddr :=
  if ¬ peer.isLoopback then peer
  else
    match (headers.get xForwardedFor).bind forwardedIp with
    | some ip => ip
    | none =>
      match realIp headers with
      | some ip => ip
      | none => peer

/-- `remote_ip` of `agent_ws_upgrade`. -/
def agentRemoteIp (peer : IpAddr) (headers : HeaderMap) : String :=
  (realClientIp peer headers).toString

/-! ## The reverse proxy -/

def comma : UInt8 := 44

/-- A proxy on loopback and a client that connects to it from `peer`, with the text that the proxy
writes for that address. -/
structure Hop where
  socket : IpAddr
  loopback : socket.isLoopback
  peer : IpAddr
  peerText : List UInt8
  parses : forwardedIp peerText = some peer

/-- What the client itself supplies as `X-Forwarded-For`. -/
def supplied (client : HeaderMap) : List (List UInt8) :=
  (client.filter fun h => h.1 = xForwardedFor).map (·.2)

/-- The request as the proxy passes it on: the client's address is appended to `X-Forwarded-For`. -/
def Hop.forward (hop : Hop) (client : HeaderMap) : HeaderMap :=
  (xForwardedFor, [comma, 32].intercalate (supplied client ++ [hop.peerText])) ::
    client.filter fun h => h.1 ≠ xForwardedFor

/-- The gateway sees the client's address whatever the client sends, and takes no client from
elsewhere for a local one. -/
structure Attributed (hop : Hop) (client : HeaderMap) : Prop where
  ip : realClientIp hop.socket (hop.forward client) = hop.peer
  notLocal : ¬ hop.peer.isLoopback → ¬ isLoopback (agentRemoteIp hop.socket (hop.forward client))

/-- The address that the client itself puts first. -/
def leftmost (client : HeaderMap) : Option IpAddr :=
  match supplied client with
  | [] => none
  | value :: rest =>
    if (value :: rest).all fun v => v.all isVisible then forwardedIp value else none

/-- The client supplies no `X-Forwarded-For`, or puts its own address first; or nothing that is an
address, with its own address in `X-Real-IP`, which otherwise counts as the proxy's. -/
def ClaimsOwnAddress (hop : Hop) (client : HeaderMap) : Prop :=
  supplied client = [] ∨ leftmost client = some hop.peer ∨
    leftmost client = none ∧ (realIp client).getD hop.socket = hop.peer

instance (hop : Hop) (client : HeaderMap) : Decidable (ClaimsOwnAddress hop client) := by
  unfold ClaimsOwnAddress
  infer_instance

/-! ## What the gateway sees -/

section

variable {hop : Hop} {client : HeaderMap}

theorem realIp_forward : realIp (hop.forward client) = realIp client := by
  have hother : xForwardedFor ≠ xRealIp := by decide
  have hget : HeaderMap.get (hop.forward client) xRealIp = HeaderMap.get client xRealIp := by
    unfold HeaderMap.get Hop.forward
    rw [List.find?_cons_of_neg (by simpa using hother), List.find?_filter]
    congr 2
    funext h
    by_cases heq : h.1 = xRealIp
    · simpa [heq] using hother.symm
    · simp [heq]
  rw [realIp, realIp, hget]

theorem takeWhile_append_cons {α : Type*} {p : α → Bool} {x : α} (hx : p x = false) (l r : List α) :
    (l ++ x :: r).takeWhile p = l.takeWhile p := by
  induction l with
  | nil => simp [hx]
  | cons y l ih => simp [List.takeWhile_cons, ih]

/-- A comma ends the first part. -/
theorem firstPart_append (a b : List UInt8) :
    firstPart (text (a ++ comma :: b)) = firstPart (text a) := by
  have hcomma : Char.ofNat comma.toNat = ',' := by decide
  simp only [firstPart, text, String.toList_ofList, List.map_append, List.map_cons, hcomma]
  rw [takeWhile_append_cons (by simp)]

theorem all_intercalate (values : List (List UInt8)) :
    ([comma, 32].intercalate values).all isVisible = values.all fun v => v.all isVisible := by
  have hsep : [comma, 32].all isVisible = true := by decide
  induction values with
  | nil => rfl
  | cons v rest ih =>
    cases rest with
    | nil => simp
    | cons w rest =>
      rw [List.intercalate_cons_cons, List.all_append, List.all_append, hsep, ih]
      simp

theorem all_peerText : hop.peerText.all isVisible = true := by
  have h := hop.parses
  unfold forwardedIp toStr at h
  split_ifs at h with hall
  · exact hall
  · cases h

/-- The gateway reads the address that the client put first, if it put anything in. -/
theorem forwardedIp_forward (h : supplied client ≠ []) :
    forwardedIp ([comma, 32].intercalate (supplied client ++ [hop.peerText])) =
      leftmost client := by
  obtain ⟨value, rest, hs⟩ := List.exists_cons_of_ne_nil h
  obtain ⟨next, others, hnext⟩ : ∃ next others, rest ++ [hop.peerText] = next :: others :=
    List.exists_cons_of_ne_nil (by simp)
  have hall : ([comma, 32].intercalate (supplied client ++ [hop.peerText])).all isVisible =
      (value :: rest).all fun v => v.all isVisible := by
    rw [all_intercalate, hs, List.all_append, List.all_cons (a := hop.peerText), all_peerText]
    simp
  have hjoin : [comma, 32].intercalate (supplied client ++ [hop.peerText]) =
      value ++ comma :: ([32] ++ [comma, 32].intercalate (next :: others)) := by
    rw [hs, List.cons_append, hnext, List.intercalate_cons_cons]
    simp
  unfold forwardedIp leftmost toStr
  rw [hall, hjoin, hs]
  dsimp only
  split_ifs with hvisible
  · have hvalue : value.all isVisible := by
      rw [List.all_cons] at hvisible
      exact (Bool.and_eq_true_iff.1 hvisible).1
    simp [forwardedIp, toStr, hvalue, firstPart_append]
  · rfl

theorem realClientIp_forward : realClientIp hop.socket (hop.forward client) =
    if supplied client = [] then hop.peer
    else
      match leftmost client with
      | some ip => ip
      | none => (realIp client).getD hop.socket := by
  have hget : (HeaderMap.get (hop.forward client) xForwardedFor) =
      some ([comma, 32].intercalate (supplied client ++ [hop.peerText])) := by
    simp [HeaderMap.get, Hop.forward]
  unfold realClientIp
  rw [if_neg (not_not_intro hop.loopback), hget, Option.bind_some, realIp_forward]
  split_ifs with hs
  · rw [hs, List.nil_append]
    simp [hop.parses]
  · rw [forwardedIp_forward hs]
    rcases leftmost client with _ | ip
    · cases realIp client <;> rfl
    · rfl

/-- The gateway attributes a request to its client exactly when the client supplies no
`X-Forwarded-For`, or what it supplies speaks for its own address. -/
theorem attributed_iff (hop : Hop) (client : HeaderMap) :
    Attributed hop client ↔ ClaimsOwnAddress hop client := by
  have hip : realClientIp hop.socket (hop.forward client) = hop.peer ↔
      ClaimsOwnAddress hop client := by
    rw [realClientIp_forward, ClaimsOwnAddress]
    split_ifs with hs
    · simp [hs]
    · rcases leftmost client with _ | ip
      · simp [hs]
      · simp [hs]
  refine ⟨fun h => hip.1 h.ip, fun h => ⟨hip.2 h, fun hpeer hlocal => hpeer ?_⟩⟩
  rw [agentRemoteIp, hip.2 h] at hlocal
  refine IpAddr.isLoopback_of_toString ?_
  simpa [isLoopback] using hlocal

end

/-! ## A client that claims to be local -/

def ascii (s : String) : List UInt8 := s.toList.map fun c => UInt8.ofNat c.toNat

/-- A client from 203.0.113.7. -/
def outside : Hop where
  socket := .v4 ⟨127, 0, 0, 1⟩
  loopback := rfl
  peer := .v4 ⟨203, 0, 113, 7⟩
  peerText := ascii "203.0.113.7"
  parses := by decide

def claimsLocal : HeaderMap := [(xForwardedFor, ascii "127.0.0.1")]

/-- The gateway takes the client for one on its own machine, and enrols its agent at once. -/
theorem outside_taken_for_local :
    realClientIp outside.socket (outside.forward claimsLocal) = .v4 ⟨127, 0, 0, 1⟩ ∧
      ¬ Attributed outside claimsLocal ∧
      ∃ host, (Enrollment.resolveAuthPath Enrollment.plainHashes 0 ⟨"h1", "t0"⟩ true
        ⟨"web", "K1", none, agentRemoteIp outside.socket (outside.forward claimsLocal)⟩ none false
          ⟨.absent, ∅, ∅, []⟩).1 = .authenticated host := by
  have hlocal : realClientIp outside.socket (outside.forward claimsLocal) =
      .v4 ⟨127, 0, 0, 1⟩ := by decide
  refine ⟨hlocal, fun h => ?_, ?_⟩
  · exact absurd (hlocal.symm.trans h.ip) (by decide)
  · have hip : agentRemoteIp outside.socket (outside.forward claimsLocal) = "127.0.0.1" := by
      rw [agentRemoteIp, hlocal]
      decide
    rw [hip]
    exact ⟨_, rfl⟩

end Tenodera.Gateway

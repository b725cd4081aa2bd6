import Tenodera.Lib.IpAddr
import Tenodera.Lib.Text

/-!
# Is the gateway on this machine

The agent tells the gateway that it is local when the text of its gateway URL contains a loopback
address or `localhost`, wherever in the URL that is.  `contains_text_iff` takes such a text apart
along the URL, and `isLocal_loopback_iff` says for which URLs the host is a loopback one whenever
the agent calls itself local.
-/

namespace Tenodera.Agent

/-- `AgentConfig::is_local`. -/
def isLocal (gatewayUrl : String) : Bool :=
  Text.contains gatewayUrl "127.0.0.1" || Text.contains gatewayUrl "localhost" ||
    Text.contains gatewayUrl "::1"

/-! ## URLs -/

/-- The delimiters of a URL. -/
def urlDelims : List Char := [':', '/', '?', '#', '[', ']', '@']

/-- The host of a URL: a name or an IPv4 address, or the IPv6 address in brackets. -/
inductive UrlHost
  | name (text : List Char) (plain : ∀ c ∈ text, c ∉ urlDelims)
  | literal (text : List Char) (plain : ∀ c ∈ text, c ∉ ['/', '?', '#', '[', ']', '@'])

def UrlHost.text : UrlHost → List Char
  | name text _ => text
  | literal text _ => '[' :: (text ++ [']'])

/-- A loopback name or address. -/
def UrlHost.isLoopback : UrlHost → Bool
  | name text _ =>
    let lower := text.map Char.toLower
    lower = "localhost".toList || ".localhost".toList.isSuffixOf lower ||
      (IpAddr.parse (String.ofList text)).any IpAddr.isLoopback
  | literal text _ => (IpAddr.parse (String.ofList text)).any IpAddr.isLoopback

/-- A URL with its parts; `rest` is the path, the query and the fragment. -/
structure GatewayUrl where
  scheme : List Char
  userinfo : Option (List Char)
  host : UrlHost
  port : Option (List Char)
  rest : List Char
  schemeIs : ∀ c ∈ scheme, c ∉ urlDelims
  userinfoIs : ∀ text ∈ userinfo, ∀ c ∈ text, c ∉ ['/', '?', '#', '[', ']', '@']
  portIs : ∀ text ∈ port, ∀ c ∈ text, c.isDigit
  restIs : ∀ c ∈ rest.head?, c ∈ ['/', '?', '#']

namespace GatewayUrl

/-- The host with the port. -/
def hostPort (u : GatewayUrl) : List Char :=
  match u.port with
  | some port => u.host.text ++ ':' :: port
  | none => u.host.text

/-- What follows the `//`. -/
def afterSlashes (u : GatewayUrl) : List Char :=
  match u.userinfo with
  | some userinfo => userinfo ++ '@' :: (u.hostPort ++ u.rest)
  | none => u.hostPort ++ u.rest

/-- The URL as it stands in the configuration. -/
def text (u : GatewayUrl) : String :=
  String.ofList (u.scheme ++ ':' :: '/' :: '/' :: u.afterSlashes)

/-- The text stands in one of the parts of the URL. -/
def Mentions (u : GatewayUrl) (marker : List Char) : Prop :=
  marker <:+: u.scheme ∨ (∃ text ∈ u.userinfo, marker <:+: text) ∨ marker <:+: u.host.text ∨
    marker <:+: u.rest

end GatewayUrl

/-! ## Parts of a text -/

section

variable {α : Type*} {x : α} {part a b : List α}

/-- A part without the delimiter stands before it or behind it. -/
theorem infix_append_cons_iff (hx : x ∉ part) :
    part <:+: a ++ x :: b ↔ part <:+: a ∨ part <:+: b := by
  have hbegins {l : List α} (hl : l ⊆ part) (h : l <+: x :: b) : l = [] := by
    cases l with
    | nil => rfl
    | cons y l =>
      obtain ⟨rfl, -⟩ := List.cons_prefix_cons.1 h
      exact absurd (hl List.mem_cons_self) hx
  rw [List.infix_append_iff, List.infix_cons_iff]
  constructor
  · rintro (h | (h | h) | ⟨l, l', rfl, hsuffix, h⟩)
    · exact .inl h
    · rw [hbegins (List.Subset.refl part) h]
      exact .inl (List.nil_infix)
    · exact .inr h
    · rw [hbegins (List.subset_append_right ..) h, List.append_nil]
      exact .inl hsuffix.isInfix
  · exact Or.imp id fun h => .inl (.inr h)

theorem infix_cons_of_notMem (hx : x ∉ part) (hne : part ≠ []) :
    part <:+: x :: b ↔ part <:+: b := by
  have hnil : ¬ part <:+: [] := fun h => hne (List.infix_nil.1 h)
  have hsplit := infix_append_cons_iff (a := []) (b := b) hx
  rw [List.nil_append] at hsplit
  rw [hsplit]
  exact or_iff_right hnil

end

namespace GatewayUrl

variable {u : GatewayUrl} {marker : List Char}

/-- What `is_local` looks for. -/
def markers : List (List Char) := ["127.0.0.1".toList, "localhost".toList, "::1".toList]

/-- Neither a slash nor any other delimiter but a colon is in a marker. -/
theorem notMem_marker (hm : marker ∈ markers) {c : Char}
    (hc : c ∈ ['/', '?', '#', '[', ']', '@']) : c ∉ marker := by
  revert hc hm
  unfold markers
  simp only [List.mem_cons, List.not_mem_nil, or_false]
  rintro (rfl | rfl | rfl) <;> rintro (rfl | rfl | rfl | rfl | rfl | rfl) <;> decide

theorem marker_ne_nil (hm : marker ∈ markers) : marker ≠ [] := by
  revert hm
  unfold markers
  simp only [List.mem_cons, List.not_mem_nil, or_false]
  rintro (rfl | rfl | rfl) <;> decide

/-- A marker has no colon, or two. -/
theorem colon_marker (hm : marker ∈ markers) : ':' ∉ marker ∨ marker = "::1".toList := by
  revert hm
  unfold markers
  simp only [List.mem_cons, List.not_mem_nil, or_false]
  rintro (rfl | rfl | rfl)
  · exact .inl (by decide)
  · exact .inl (by decide)
  · exact .inr rfl

/-- No marker consists of digits. -/
theorem not_infix_digits (hm : marker ∈ markers) {port : List Char}
    (hport : ∀ c ∈ port, c.isDigit) : ¬ marker <:+: port := by
  intro h
  have hdigits : ∀ c ∈ marker, c.isDigit := fun c hc => hport c (h.subset hc)
  have hother : ∃ c ∈ marker, ¬ c.isDigit := by
    revert hm
    unfold markers
    simp only [List.mem_cons, List.not_mem_nil, or_false]
    rintro (rfl | rfl | rfl)
    · exact ⟨'.', by decide, by decide⟩
    · exact ⟨'l', by decide, by decide⟩
    · exact ⟨':', by decide, by decide⟩
  obtain ⟨c, hc, hnot⟩ := hother
  exact hnot (hdigits c hc)

/-- The marker with the colons needs two of them. -/
theorem not_infix_of_count {l : List Char} (h : l.count ':' < 2) : ¬ "::1".toList <:+: l := by
  intro hin
  have hcount : "::1".toList.count ':' ≤ l.count ':' := hin.sublist.count_le _
  have htwo : "::1".toList.count ':' = 2 := by decide
  omega

theorem count_colon_eq_zero {l : List Char} (h : ∀ c ∈ l, c ∉ urlDelims) : l.count ':' = 0 :=
  List.count_eq_zero.2 fun hc => h ':' hc (by decide)

/-- The colon behind the scheme is part of no marker. -/
theorem infix_scheme_iff (hm : marker ∈ markers) :
    marker <:+: u.scheme ++ [':'] ↔ marker <:+: u.scheme := by
  have hzero := count_colon_eq_zero u.schemeIs
  rcases colon_marker hm with hcolon | rfl
  · rw [infix_append_cons_iff hcolon]
    exact or_iff_left fun h => marker_ne_nil hm (List.infix_nil.1 h)
  · refine iff_of_false (not_infix_of_count ?_) (not_infix_of_count (by omega))
    rw [List.count_append, hzero]
    decide

/-- Neither is the port with its colon. -/
theorem infix_hostPort_iff (hm : marker ∈ markers) :
    marker <:+: u.hostPort ↔ marker <:+: u.host.text := by
  unfold hostPort
  split
  swap
  · rfl
  next port hport =>
  have hdigits := u.portIs port hport
  have hzero : port.count ':' = 0 := List.count_eq_zero.2 fun hc => by
    have := hdigits ':' hc
    revert this
    decide
  rcases colon_marker hm with hcolon | rfl
  · rw [infix_append_cons_iff hcolon]
    exact or_iff_left (not_infix_digits hm hdigits)
  · cases u.host with
    | name text plain =>
      have hname := count_colon_eq_zero plain
      refine iff_of_false (not_infix_of_count ?_) (not_infix_of_count ?_)
      · rw [UrlHost.text, List.count_append, hname, List.count_cons_self, hzero]
        decide
      · rw [UrlHost.text, hname]
        decide
    | literal text plain =>
      have hbracket : ']' ∉ "::1".toList := by decide
      have hsplit : UrlHost.text (.literal text plain) ++ ':' :: port =
          ('[' :: text) ++ ']' :: (':' :: port) := by simp [UrlHost.text]
      have hhost : UrlHost.text (.literal text plain) = ('[' :: text) ++ ']' :: [] := rfl
      rw [hsplit, hhost, infix_append_cons_iff hbracket, infix_append_cons_iff hbracket]
      refine or_congr_right (iff_of_false (not_infix_of_count ?_) (not_infix_of_count (by decide)))
      rw [List.count_cons_self, hzero]
      decide

/-- Neither is what separates the host from the rest. -/
theorem infix_hostPort_append_iff (hm : marker ∈ markers) :
    marker <:+: u.hostPort ++ u.rest ↔ marker <:+: u.hostPort ∨ marker <:+: u.rest := by
  have hdelim := u.restIs
  cases hrest : u.rest with
  | nil =>
    rw [List.append_nil]
    exact (or_iff_left fun h => marker_ne_nil hm (List.infix_nil.1 h)).symm
  | cons d rest =>
    have hd : d ∉ marker := by
      refine notMem_marker hm ?_
      have hin := hdelim d (by rw [hrest]; rfl)
      revert hin
      simp only [List.mem_cons, List.not_mem_nil, or_false]
      tauto
    rw [infix_append_cons_iff hd, infix_cons_of_notMem hd (marker_ne_nil hm)]

/-- A marker that stands in the URL stands in one of its parts. -/
theorem contains_text_iff (hm : marker ∈ markers) :
    Text.contains u.text (String.ofList marker) ↔ u.Mentions marker := by
  have hslash : '/' ∉ marker := notMem_marker hm (by decide)
  have hat : '@' ∉ marker := notMem_marker hm (by decide)
  have htext : u.text.toList = (u.scheme ++ [':']) ++ '/' :: ('/' :: u.afterSlashes) := by
    simp [text]
  have hafter : marker <:+: u.afterSlashes ↔
      (∃ text ∈ u.userinfo, marker <:+: text) ∨ marker <:+: u.host.text ∨ marker <:+: u.rest := by
    unfold afterSlashes
    split
    · next userinfo huserinfo =>
      rw [infix_append_cons_iff hat, infix_hostPort_append_iff hm, infix_hostPort_iff hm, huserinfo]
      simp
    · next huserinfo =>
      rw [infix_hostPort_append_iff hm, infix_hostPort_iff hm, huserinfo]
      simp
  unfold Text.contains Mentions
  rw [decide_eq_true_iff, String.toList_ofList, htext, infix_append_cons_iff hslash,
    infix_cons_of_notMem hslash (marker_ne_nil hm), infix_scheme_iff hm, hafter]

/-- Whenever the agent calls itself local the host of its URL is a loopback one, iff that is so or
none of the texts stands anywhere in the URL. -/
theorem isLocal_loopback_iff (u : GatewayUrl) : (isLocal u.text → u.host.isLoopback) ↔
    u.host.isLoopback ∨ ∀ marker ∈ markers, ¬ u.Mentions marker := by
  have hlocal : isLocal u.text ↔ ∃ marker ∈ markers, u.Mentions marker := by
    have hmentions (marker : String) (hm : marker.toList ∈ markers) :
        Text.contains u.text marker ↔ u.Mentions marker.toList := by
      rw [← contains_text_iff hm, String.ofList_toList]
    unfold isLocal
    rw [Bool.or_eq_true, Bool.or_eq_true, hmentions _ (by decide), hmentions _ (by decide),
      hmentions _ (by decide)]
    simp [markers, or_assoc]
  rw [hlocal]
  constructor
  · intro h
    by_cases hloopback : u.host.isLoopback
    · exact .inl hloopback
    · exact .inr fun marker hm hmentions => hloopback (h ⟨marker, hm, hmentions⟩)
  · rintro (hloopback | hnone) ⟨marker, hm, hmentions⟩
    · exact hloopback
    · exact absurd hmentions (hnone marker hm)

end GatewayUrl

end Tenodera.Agent

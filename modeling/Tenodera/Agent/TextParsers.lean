import Tenodera.Lib.Lines
import Tenodera.Lib.Slices
import Tenodera.Lib.Words

/-!
# Parsers of files and of command output

`parse_key_line`, `parse_sources`, `parse_resolvectl_status` and the parser of `/proc/net/dev`, with
their slices and indices.  None is a panic; `isSome_run_iff` says for which texts each returns.
-/

namespace Tenodera.Agent.TextParsers

open Utf8

/-- `str::split_whitespace`. -/
def words (cs : List Char) : List (List Char) := Words.words Text.isWhitespace cs

/-- `[String]::join`. -/
def joinWords (tokens : List (List Char)) : List Char := [' '].intercalate tokens

/-! ## authorized_keys -/

/-- `KEY_PREFIXES`. -/
def keyPrefixes : List (List Char) :=
  ["ssh-rsa".toList, "ssh-ed25519".toList, "ssh-dss".toList, "ecdsa-sha2-nistp256".toList,
    "ecdsa-sha2-nistp384".toList, "ecdsa-sha2-nistp521".toList,
    "sk-ssh-ed25519@openssh.com".toList, "sk-ecdsa-sha2-nistp256@openssh.com".toList]

structure KeyLine where
  type : List Char
  comment : List Char
  preview : List Char
  raw : List Char
  deriving DecidableEq

/-- The beginning and the end of a long key. -/
def preview (blob : List Char) : Option (List Char) :=
  if size blob > 20 then do
    let first ← prefixTo 10 blob
    let last ← suffixFrom (size blob - 6) blob
    return first ++ '…' :: last
  else some blob

/-- `parse_key_line`; the outer none is a panic. -/
def parseKeyLine (line : List Char) : Option (Option KeyLine) :=
  let t := Text.trimmed line
  if t = [] ∨ t.head? = some '#' then some none
  else
    let toks := words t
    match toks.findIdx? (· ∈ keyPrefixes) with
    | none => some none
    | some typeIdx => do
      let type ← toks[typeIdx]?
      let preview ← preview (toks[typeIdx + 1]?.getD [])
      return some ⟨type, joinWords (toks.drop (typeIdx + 2)), preview, t⟩

/-! ## chronyc sources -/

structure Source where
  code : List Char
  mode : Char
  state : Char
  synced : Bool
  name : List Char
  stratum : List Char
  poll : List Char
  reach : List Char
  lastRx : List Char
  lastSample : List Char
  deriving DecidableEq

/-- A line of `parse_sources`. -/
def parseSource (line : List Char) : Option (Option Source) :=
  if size line < 3 then some none
  else do
    let code ← prefixTo 2 line
    let mode := code.head?.getD ' '
    if mode ∉ ['^', '=', '#'] then return none
    let state := code[1]?.getD ' '
    let rest ← suffixFrom 2 line
    let toks := words rest
    if toks.length < 5 then return none
    let name ← toks[0]?
    let stratum ← toks[1]?
    let poll ← toks[2]?
    let reach ← toks[3]?
    let lastRx ← toks[4]?
    return some ⟨Text.trimmed code, mode, state, state = '*', name, stratum, poll, reach, lastRx,
      joinWords (toks.drop 5)⟩

/-- `parse_sources`. -/
def parseSources (out : List Char) : Option (List Source) :=
  ((Text.linesOf out).mapM parseSource).map (·.filterMap id)

/-! ## resolvectl status -/

structure Protocols where
  dnssec : List Char := []
  dot : List Char := []
  llmnr : List Char := []
  mdns : List Char := []
  deriving DecidableEq

/-- `str::strip_prefix`. -/
def stripPrefix (start token : List Char) : Option (List Char) :=
  if start <+: token then some (token.drop start.length) else none

/-- What a token of the protocols says. -/
def protocol (p : Protocols) (token : List Char) : Protocols :=
  match stripPrefix "DNSSEC=".toList token, stripPrefix "DNSOverTLS=".toList token,
      stripPrefix "LLMNR=".toList token, stripPrefix "MulticastDNS=".toList token with
  | some v, _, _, _ => { p with dnssec := v.takeWhile (· ≠ '/') }
  | none, some v, _, _ => { p with dot := v }
  | none, none, some v, _ => { p with llmnr := v }
  | none, none, none, some v => { p with mdns := v }
  | none, none, none, none =>
    if token = "+LLMNR".toList then { p with llmnr := "yes".toList }
    else if token = "-LLMNR".toList then { p with llmnr := "no".toList }
    else if token = "+mDNS".toList then { p with mdns := "yes".toList }
    else if token = "-mDNS".toList then { p with mdns := "no".toList }
    else if token = "+DNSOverTLS".toList then { p with dot := "yes".toList }
    else if token = "-DNSOverTLS".toList then { p with dot := "no".toList }
    else p

/-- `parse_protocols`. -/
def parseProtocols (s : List Char) : Protocols := (words s).foldl protocol {}

inductive Section
  | global
  | link
  deriving DecidableEq

structure Link where
  name : List Char := []
  currentDns : List Char := []
  dnsServers : List (List Char) := []
  dnsDomain : List Char := []
  deriving DecidableEq

/-- The variables of `parse_resolvectl_status`; `link` is the link whose lines are read. -/
structure Status where
  mode : List Char := []
  currentDns : List Char := []
  dnsServers : List (List Char) := []
  fallbackDns : List (List Char) := []
  dnsDomain : List Char := []
  protocols : Protocols := {}
  links : List Link := []
  block : Section := .global
  link : Link := {}
  protoBuf : List Char := []
  inProto : Bool := false
  deriving DecidableEq

/-- `flush_link` when a link is left. -/
def Status.flush (s : Status) : Status :=
  if s.block = .link then
    { s with links := if s.link.name ≠ [] then s.links ++ [s.link] else s.links, link := {} }
  else s

/-- A line `key: value`. -/
def Status.set (s : Status) (key val : List Char) : Status :=
  match s.block with
  | .global =>
    if key = "resolv.conf mode".toList then { s with mode := val }
    else if key = "Current DNS Server".toList then { s with currentDns := val }
    else if key = "DNS Servers".toList then { s with dnsServers := words val }
    else if key = "Fallback DNS Servers".toList ∨ key = "Fallback DNS Server".toList then
      { s with fallbackDns := words val }
    else if key = "DNS Domain".toList then { s with dnsDomain := val }
    else if key = "Protocols".toList then
      { s with protoBuf := val, inProto := true, protocols := parseProtocols val }
    else s
  | .link =>
    if key = "Current DNS Server".toList then { s with link.currentDns := val }
    else if key = "DNS Servers".toList then { s with link.dnsServers := words val }
    else if key = "DNS Domain".toList then { s with link.dnsDomain := val }
    else s

/-- The name in "Link 2 (eth0)". -/
def linkName (line : List Char) : Option (Option (List Char)) :=
  match find ['('] line, find [')'] line with
  | some s, some e => (slice (s + 1) e line).map some
  | _, _ => some none

/-- The loop body of `parse_resolvectl_status`. -/
def Status.step (s : Status) (rawLine : List Char) : Option Status :=
  let line := rawLine.rdropWhile Text.isWhitespace
  if s.inProto ∧ List.replicate 20 ' ' <+: line ∧ ':' ∉ line then
    some { s with protoBuf := s.protoBuf ++ ' ' :: Text.trimmed line }
  else
    let s := { s with inProto := false }
    if line = "Global".toList then some { s.flush with block := .global }
    else if "Link ".toList <+: line then do
      match ← linkName line with
      | some name => return { s.flush with link.name := name, block := .link }
      | none => return { s.flush with block := .link }
    else
      match find [':'] line with
      | none => some s
      | some colon => do
        let key ← prefixTo colon line
        let val ← suffixFrom (colon + 1) line
        return s.set (Text.trimmed key) (Text.trimmed val)

/-- After the loop: protocols that the first line did not have, and the last link. -/
def Status.finish (s : Status) : Status :=
  let p := parseProtocols s.protoBuf
  let q := s.protocols
  if s.inProto then
    Status.flush { s with protocols :=
      ⟨if q.dnssec = [] then p.dnssec else q.dnssec, if q.dot = [] then p.dot else q.dot,
        if q.llmnr = [] then p.llmnr else q.llmnr, if q.mdns = [] then p.mdns else q.mdns⟩ }
  else s.flush

/-- `parse_resolvectl_status`. -/
def parseResolvectlStatus (output : List Char) : Option Status :=
  ((Text.linesOf output).foldlM Status.step {}).map Status.finish

/-! ## /proc/net/dev -/

/-- What `get_network_stats` reads about an interface elsewhere. -/
structure Attributes where
  state : List Char
  mac : List Char
  speed : Option ℕ
  ipv4 : List (List Char)
  ipv6 : List (List Char)
  deriving DecidableEq

structure Interface where
  name : List Char
  attributes : Attributes
  rxBytes : ℕ
  rxPackets : ℕ
  rxErrors : ℕ
  txBytes : ℕ
  txPackets : ℕ
  txErrors : ℕ
  deriving DecidableEq

/-- `str::split_once` with a character. -/
def splitOnce (c : Char) (cs : List Char) : Option (List Char × List Char) :=
  if c ∈ cs then some (cs.takeWhile (· ≠ c), (cs.dropWhile (· ≠ c)).drop 1) else none

/-- The words of a text that are numbers. -/
def numbers (cs : List Char) : List ℕ :=
  (words cs).filterMap fun word => Text.parseUnsigned 64 (String.ofList word)

/-- A line of `get_network_stats`. -/
def interface (attributes : List Char → Attributes) (line : List Char) :
    Option (Option Interface) :=
  match splitOnce ':' (Text.trimmed line) with
  | none => some none
  | some (iface, rest) =>
    let iface := Text.trimmed iface
    if iface = "lo".toList then some none
    else
      let values := numbers rest
      if values.length < 10 then some none
      else do
        let rxBytes ← values[0]?
        let rxPackets ← values[1]?
        let rxErrors ← values[2]?
        let txBytes ← values[8]?
        let txPackets ← values[9]?
        let txErrors ← values[10]?
        return some ⟨iface, attributes iface, rxBytes, rxPackets, rxErrors, txBytes, txPackets,
          txErrors⟩

/-- `get_network_stats` on the text of `/proc/net/dev`. -/
def getNetworkStats (attributes : List Char → Attributes) (content : List Char) :
    Option (List Interface) :=
  (((Text.linesOf content).drop 2).mapM (interface attributes)).map (·.filterMap id)

example : parseKeyLine "no-pty ssh-rsa AAAAB3NzaC1yc2EAAAADAQAB me@host".toList =
    some (some ⟨"ssh-rsa".toList, "me@host".toList, "AAAAB3NzaC…ADAQAB".toList,
      "no-pty ssh-rsa AAAAB3NzaC1yc2EAAAADAQAB me@host".toList⟩) := by
  decide

/-! ## Texts on which they return -/

/-- The blob of a key line is short, or the preview cuts it between characters. -/
def KeyLineSafe (line : List Char) : Prop :=
  let t := Text.trimmed line
  t ≠ [] → t.head? ≠ some '#' → ∀ i, (words t).findIdx? (· ∈ keyPrefixes) = some i →
    ∀ blob ∈ (words t)[i + 1]?, 20 < size blob →
      Boundary 10 blob ∧ Boundary (size blob - 6) blob

/-- The brackets of a line that starts a link are in their order. -/
def LinkSafe (rawLine : List Char) : Prop :=
  let line := rawLine.rdropWhile Text.isWhitespace
  "Link ".toList <+: line →
    ∀ s ∈ find ['('] line, ∀ e ∈ find [')'] line, s < e

/-- The line does not have exactly ten numbers behind its colon, or is skipped. -/
def NetworkSafe (line : List Char) : Prop :=
  ∀ iface rest, splitOnce ':' (Text.trimmed line) = some (iface, rest) →
    Text.trimmed iface ≠ "lo".toList → (numbers rest).length ≠ 10

section

variable {line : List Char}

theorem isSome_preview_iff {blob : List Char} : (preview blob).isSome ↔
    (20 < size blob → Boundary 10 blob ∧ Boundary (size blob - 6) blob) := by
  unfold preview
  split_ifs with hlong
  · rw [← isSome_prefixTo_iff, ← isSome_suffixFrom_iff]
    cases prefixTo 10 blob with
    | none => simp [hlong]
    | some first => cases suffixFrom (size blob - 6) blob <;> simp [hlong]
  · exact iff_of_true rfl fun h => absurd h hlong

theorem isSome_parseKeyLine_iff : (parseKeyLine line).isSome ↔ KeyLineSafe line := by
  unfold parseKeyLine KeyLineSafe
  generalize Text.trimmed line = t
  dsimp only
  split_ifs with hskip
  · exact iff_of_true rfl fun hne hhash => (hskip.elim hne hhash).elim
  · rw [not_or] at hskip
    cases hidx : (words t).findIdx? (· ∈ keyPrefixes) with
    | none => simp
    | some i =>
      obtain ⟨type, htype⟩ : ∃ type, (words t)[i]? = some type :=
        ⟨_, List.getElem?_eq_getElem (List.findIdx?_eq_some_iff_findIdx_eq.1 hidx).1⟩
      have hsome : (do
          let type ← (words t)[i]?
          let preview ← preview ((words t)[i + 1]?.getD [])
          return some (⟨type, joinWords ((words t).drop (i + 2)), preview, t⟩ : KeyLine)).isSome =
            (preview ((words t)[i + 1]?.getD [])).isSome := by
        rw [htype]
        cases preview ((words t)[i + 1]?.getD []) <;> rfl
      rw [hsome, isSome_preview_iff]
      cases hblob : (words t)[i + 1]? with
      | none => simp [hblob]
      | some blob => simp [hskip, hblob]

theorem isSome_parseSource_iff :
    (parseSource line).isSome ↔ (3 ≤ size line → Boundary 2 line) := by
  unfold parseSource
  split_ifs with hshort
  · exact iff_of_true rfl fun h => by omega
  · have hlong : 3 ≤ size line := by omega
    cases hcode : prefixTo 2 line with
    | none =>
      have hnot : ¬ Boundary 2 line := by
        rw [← isSome_prefixTo_iff, hcode]
        exact Bool.false_ne_true
      simp [hlong, hnot]
    | some code =>
      have hboundary : Boundary 2 line := by
        rw [← isSome_prefixTo_iff, hcode]
        rfl
      obtain ⟨rest, hrest⟩ := Option.isSome_iff_exists.1 (isSome_suffixFrom_iff.2 hboundary)
      refine iff_of_true ?_ fun _ => hboundary
      simp only [Option.bind_eq_bind, Option.bind_some, hrest]
      by_cases hmode : code.head?.getD ' ' ∉ ['^', '=', '#']
      · rw [if_pos hmode]
        rfl
      rw [if_neg hmode]
      by_cases hfew : (words rest).length < 5
      · rw [if_pos hfew]
        rfl
      rw [if_neg hfew]
      match words rest, Nat.le_of_not_lt hfew with
      | _ :: _ :: _ :: _ :: _ :: _, _ => rfl

/-- The name of a link is cut out of the line iff its brackets are in order. -/
theorem isSome_linkName_iff : (linkName line).isSome ↔
    ∀ s ∈ find ['('] line, ∀ e ∈ find [')'] line, s < e := by
  unfold linkName
  cases hopen : find ['('] line with
  | none => simp
  | some s =>
    cases hclose : find [')'] line with
    | none => simp
    | some e =>
      simp only [Option.isSome_map, Option.mem_def, Option.some.injEq, forall_eq']
      obtain ⟨a, b, -, hline, ha, -⟩ := exists_of_find_char (by decide) hopen
      obtain ⟨a', b', -, hline', ha', -⟩ := exists_of_find_char (by decide) hclose
      obtain ⟨-, hs⟩ := prefixTo_eq_some_iff.1 ha
      obtain ⟨-, he⟩ := prefixTo_eq_some_iff.1 ha'
      constructor
      · intro h
        obtain ⟨w, hw⟩ := Option.isSome_iff_exists.1 h
        obtain ⟨x, y, -, hx, hxw⟩ := slice_eq_some_iff.1 hw
        rw [size_append] at hxw
        omega
      · intro hlt
        have hsize : size (a ++ ['(']) = s + 1 := by
          rw [size_append, hs]
          rfl
        have hbefore : a ++ ['('] <+: a' :=
          prefix_of_size_le ⟨b, by rw [hline, List.append_assoc, List.singleton_append]⟩
            ⟨_, hline'.symm⟩ (by omega)
        obtain ⟨w, rfl⟩ := hbefore
        have hslice : slice (s + 1) e line = some w :=
          slice_eq_some_iff.2 ⟨a ++ ['('], ')' :: b', by rw [hline', List.append_assoc], hsize, he⟩
        rw [hslice]
        rfl

theorem isSome_step_iff (s : Status) : (s.step line).isSome ↔ LinkSafe line := by
  unfold Status.step LinkSafe
  generalize line.rdropWhile Text.isWhitespace = l
  dsimp only
  split_ifs with hproto hglobal hlink
  · refine iff_of_true rfl fun hlink => ?_
    cases l with
    | nil => exact absurd (List.prefix_nil.1 hlink) (by decide)
    | cons c l =>
      have hspace : ' ' = c := (List.cons_prefix_cons.1 hproto.2.1).1
      have hl : 'L' = c := (List.cons_prefix_cons.1 hlink).1
      rw [← hl] at hspace
      exact absurd hspace (by decide)
  · refine iff_of_true rfl fun hlink => ?_
    rw [hglobal] at hlink
    exact absurd hlink (by decide)
  · rw [forall_prop_of_true hlink, ← isSome_linkName_iff]
    cases linkName l with
    | none => simp
    | some name => cases name <;> simp
  · refine iff_of_true ?_ fun h => absurd h hlink
    cases hcolon : find [':'] l with
    | none => rfl
    | some colon =>
      obtain ⟨a, b, -, -, hkey, hval⟩ := exists_of_find_char (by decide) hcolon
      dsimp only
      rw [hkey, hval]
      rfl

theorem isSome_interface_iff (attributes : List Char → Attributes) :
    (interface attributes line).isSome ↔ NetworkSafe line := by
  unfold interface NetworkSafe
  cases hsplit : splitOnce ':' (Text.trimmed line) with
  | none => simp
  | some p =>
    obtain ⟨iface, rest⟩ := p
    dsimp only
    split_ifs with hlo hfew
    · simp [hlo]
    · refine iff_of_true rfl fun iface' rest' h _ => ?_
      cases h
      omega
    · have hget {n : ℕ} (hn : n < 10) : ∃ value, (numbers rest)[n]? = some value :=
        ⟨_, List.getElem?_eq_getElem (by omega)⟩
      obtain ⟨v₀, h₀⟩ := hget (n := 0) (by decide)
      obtain ⟨v₁, h₁⟩ := hget (n := 1) (by decide)
      obtain ⟨v₂, h₂⟩ := hget (n := 2) (by decide)
      obtain ⟨v₈, h₈⟩ := hget (n := 8) (by decide)
      obtain ⟨v₉, h₉⟩ := hget (n := 9) (by decide)
      rw [h₀, h₁, h₂, h₈, h₉]
      simp only [Option.bind_eq_bind, Option.bind_some]
      have hlast : (numbers rest)[10]?.isSome ↔ (numbers rest).length ≠ 10 := by
        rw [Option.isSome_iff_ne_none, ne_eq, List.getElem?_eq_none_iff]
        omega
      have hsafe : (∀ iface' rest', some (iface, rest) = some (iface', rest') →
          Text.trimmed iface' ≠ "lo".toList → (numbers rest').length ≠ 10) ↔
          (numbers rest).length ≠ 10 := by
        constructor
        · exact fun h => h iface rest rfl hlo
        · intro h iface' rest' heq _
          cases heq
          exact h
      rw [hsafe, ← hlast]
      cases (numbers rest)[10]? <;> rfl

/-! ## Loops -/

theorem isSome_mapM_iff {α β : Type} {f : α → Option β} (l : List α) :
    (l.mapM f).isSome ↔ ∀ a ∈ l, (f a).isSome := by
  induction l with
  | nil => simp
  | cons a l ih =>
    rw [List.mapM_cons, List.forall_mem_cons, ← ih]
    cases f a with
    | none => simp
    | some b => cases l.mapM f <;> simp

theorem isSome_foldlM_iff {α σ : Type} {f : σ → α → Option σ} {P : α → Prop}
    (h : ∀ s a, (f s a).isSome ↔ P a) (l : List α) (s : σ) :
    (l.foldlM f s).isSome ↔ ∀ a ∈ l, P a := by
  induction l generalizing s with
  | nil => simp
  | cons a l ih =>
    rw [List.foldlM_cons, List.forall_mem_cons, ← h s a]
    cases f s a with
    | none => simp
    | some s' => simp [ih]

/-! ## The parsers -/

inductive Parser
  | keyLine
  | sources
  | resolvectlStatus
  | networkStats

/-- The parser returns on the text. -/
def Parser.Returns (attributes : List Char → Attributes) (text : List Char) : Parser → Prop
  | keyLine => (parseKeyLine text).isSome
  | sources => (parseSources text).isSome
  | resolvectlStatus => (parseResolvectlStatus text).isSome
  | networkStats => (getNetworkStats attributes text).isSome

def Parser.Safe (text : List Char) : Parser → Prop
  | keyLine => KeyLineSafe text
  | sources => ∀ line ∈ Text.linesOf text, 3 ≤ size line → Boundary 2 line
  | resolvectlStatus => ∀ line ∈ Text.linesOf text, LinkSafe line
  | networkStats => ∀ line ∈ (Text.linesOf text).drop 2, NetworkSafe line

/-- A parser returns iff no line of the text is cut inside a character, has its brackets in the
other order, or has one number too few. -/
theorem returns_iff_safe (attributes : List Char → Attributes) (p : Parser) (text : List Char) :
    p.Returns attributes text ↔ p.Safe text := by
  cases p with
  | keyLine => exact isSome_parseKeyLine_iff
  | sources =>
    unfold Parser.Returns Parser.Safe parseSources
    rw [Option.isSome_map, isSome_mapM_iff]
    exact forall₂_congr fun line _ => isSome_parseSource_iff
  | resolvectlStatus =>
    unfold Parser.Returns Parser.Safe parseResolvectlStatus
    rw [Option.isSome_map]
    have hstep (s : Status) (line : List Char) : (s.step line).isSome ↔ LinkSafe line :=
      isSome_step_iff s
    exact isSome_foldlM_iff hstep _ _
  | networkStats =>
    unfold Parser.Returns Parser.Safe getNetworkStats
    rw [Option.isSome_map, isSome_mapM_iff]
    exact forall₂_congr fun line _ => isSome_interface_iff attributes

end

/-- For each parser a text on which it panics: a letter of two bytes at position 10 of the blob, and
one at position 2; a name that is closed before it is opened; and a line of ten numbers. -/
def badText : Parser → List Char
  | .keyLine => "ssh-ed25519 AAAAAAAAAéAAAAAAAAAAAA".toList
  | .sources => "^é 3".toList
  | .resolvectlStatus => "Global\nLink 2) (eth0".toList
  | .networkStats => "a\nb\neth0: 1 2 3 4 5 6 7 8 9 10\n".toList

theorem badText_panics :
    parseKeyLine (badText .keyLine) = none ∧ parseSources (badText .sources) = none ∧
      parseResolvectlStatus (badText .resolvectlStatus) = none ∧
      getNetworkStats (fun _ => ⟨[], [], none, [], []⟩) (badText .networkStats) = none := by
  decide

end Tenodera.Agent.TextParsers

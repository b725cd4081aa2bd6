import Mathlib.Data.List.Forall2
import Mathlib.Data.List.Infix
import Tenodera.Agent.Networking
import Tenodera.Agent.ShellScripts
import Tenodera.Lib.Lines
import Tenodera.Lib.Words

/-!
# Firewall rules

`firewall_rules_for` reads the rules out of what the tool of each firewall prints, and
`firewall_remove_rule` makes a command from the fields of a row.  `Rules` is what a firewall has,
with what its tool prints and does; `RemovalLaw` says that a row leads to the removal of its rule.
-/

namespace Tenodera.Agent.FirewallRules

open Protocol Host Text

/-! ## Parsing -/

def numberValue (n : ℕ) : Value := .number (.posInt (UInt64.ofNat n))

/-- `parse::<u32>().unwrap_or(0)`. -/
def parseNumber (cs : List Char) : ℕ := (parseUnsigned 32 (String.ofList (trimmed cs))).getD 0

/-- A line of `parse_ufw_rules`. -/
def ufwRow (line : List Char) : Option Value :=
  let line := trimmed line
  if line.head? = some '[' then
    (Words.splitOnce (· = ']') line).map fun (num, rest) =>
      .object [("number", numberValue (parseNumber (num.dropWhile (· = '[')))),
        ("rule", .string (String.ofList (trimmed rest)))]
  else none

def parseUfwRules (out : List Char) : List Value := (linesOf out).filterMap ufwRow

def firewalldRow (zone : List Char) (type : String) (value : List Char) : Value :=
  .object [("type", .string type), ("value", .string (String.ofList value)),
    ("zone", .string (String.ofList zone))]

/-- `parse_firewalld_rules`, by what the four commands print. -/
def parseFirewalldRules (zoneOut servicesOut portsOut richOut : List Char) : List Value :=
  let zone := trimmed zoneOut
  (Words.words isWhitespace servicesOut).map (firewalldRow zone "service") ++
    (Words.words isWhitespace portsOut).map (firewalldRow zone "port") ++
    (((linesOf richOut).map trimmed).filter (· ≠ [])).map (firewalldRow zone "rich-rule")

/-- The words by which lines of `nft` are taken for rules. -/
def nftWords : List (List Char) :=
  ["counter".toList, "accept".toList, "drop".toList, "reject".toList]

def isNftRule (line : List Char) : Bool := nftWords.any fun word => word <:+: line

def nftRow (line : List Char × ℕ) : Value :=
  .object [("number", numberValue (line.2 + 1)),
    ("rule", .string (String.ofList (trimmed line.1)))]

/-- The rows of `nft list ruleset`. -/
def parseNftRules (out : List Char) : List Value :=
  if trimmed out = [] ∨ "error:".toList <+: out then []
  else ((linesOf out).filter isNftRule).zipIdx.map nftRow

/-- The loop of `parse_iptables_rules`, with the chain line that was met last. -/
def iptablesRows (chain : List Char) : List (List Char) → List Value
  | [] => []
  | l :: ls =>
    let line := trimmed l
    if "Chain ".toList <+: line then iptablesRows line ls
    else if "num".toList <+: line ∨ line = [] then iptablesRows chain ls
    else
      match Words.splitOnce (· = ' ') line with
      | some (num, rest) =>
        .object [("chain", .string (String.ofList chain)),
          ("number", numberValue (parseNumber num)),
          ("rule", .string (String.ofList (trimmed rest)))] :: iptablesRows chain ls
      | none => iptablesRows chain ls

def parseIptablesRules (out : List Char) : List Value := iptablesRows [] (linesOf out)

/-- Every row is tagged with its backend. -/
def tagged (backend : String) : Value → Value
  | .object entries => .object (entries ++ [("backend", .string backend)])
  | row => row

/-! ## Rule sets -/

/-- A rule as its tool prints it. -/
structure Rule where
  text : List Char
  line : '\n' ∉ text
  solid : ∃ c ∈ text, isWhitespace c = false
  deriving DecidableEq

/-- A service, or a port with its protocol. -/
abbrev Word : Type := {w : List Char // w ≠ [] ∧ ∀ c ∈ w, isWhitespace c = false}

/-- What `firewalld` has in a zone. -/
structure Zone where
  services : List Word
  ports : List Word
  rich : List Rule

/-- A name in the output of a tool. -/
structure Name where
  text : List Char
  line : '\n' ∉ text
  nul : '\x00' ∉ text
  deriving DecidableEq

structure NftRule where
  handle : UInt64
  text : Name

structure NftChain where
  name : Name
  /-- Its type, hook and policy. -/
  header : List Name
  rules : List NftRule

structure NftTable where
  family : Name
  name : Name
  /-- Its sets, maps and counters. -/
  declarations : List Name
  chains : List NftChain

/-- A chain of the filter table. -/
structure Chain where
  name : Name
  /-- Its policy, or how often it is referenced. -/
  info : Name
  rules : List Rule

/-- The rules of a firewall; those of `firewalld` are in the running and in the permanent
configuration of its default zone. -/
inductive Rules
  | ufw (rules : List Rule)
  | firewalld (zone : Name) (running permanent : Zone)
  | nftables (tables : List NftTable)
  | iptables (chains : List Chain)

/-! ## What the tools print -/

/-- Digits, with spaces in front of them or behind them. -/
def digits (n : ℕ) : List Char := Nat.toDigits 10 n

def spaces (n width : ℕ) : List Char := List.replicate (width - (digits n).length) ' '

/-- A line of `ufw status numbered`. -/
def ufwLine (rule : Rule × ℕ) : List Char :=
  '[' :: (spaces (rule.2 + 1) 2 ++ digits (rule.2 + 1)) ++ ']' :: ' ' :: rule.1.text

def ufwHeader : List (List Char) :=
  ["Status: active".toList, [], "     To                         Action      From".toList,
    "     --                         ------      ----".toList]

def ufwStatus (rules : List Rule) : List Char :=
  unlines (ufwHeader ++ rules.zipIdx.map ufwLine ++ [[]])

/-- What `firewall-cmd` prints for services and for ports. -/
def wordList (ws : List Word) : List Char := [' '].intercalate (ws.map Subtype.val) ++ ['\n']

/-- A rule of a chain of a table, and where they are. -/
structure NftPlaced where
  t : ℕ
  table : NftTable
  c : ℕ
  chain : NftChain
  r : ℕ
  rule : NftRule

/-- A line, with the rule that it is for. -/
abbrev NftLine : Type := List Char × Option NftPlaced

def NftChain.lines (t : ℕ) (table : NftTable) (chain : NftChain × ℕ) : List NftLine :=
  (("\tchain ".toList ++ chain.1.name.text ++ " \x7b".toList, none) ::
    chain.1.header.map fun l => ("\t\t".toList ++ l.text, none)) ++
    chain.1.rules.zipIdx.map (fun (rule, r) =>
      ("\t\t".toList ++ rule.text.text, some ⟨t, table, chain.2, chain.1, r, rule⟩)) ++
    [("\t\x7d".toList, none)]

def NftTable.lines (table : NftTable × ℕ) : List NftLine :=
  (("table ".toList ++ table.1.family.text ++ ' ' :: table.1.name.text ++ " \x7b".toList, none) ::
    table.1.declarations.map fun l => ('\t' :: l.text, none)) ++
    table.1.chains.zipIdx.flatMap (NftChain.lines table.2 table.1) ++
    [("\x7d".toList, none)]

/-- The lines of `nft list ruleset`. -/
def nftLines (tables : List NftTable) : List NftLine := tables.zipIdx.flatMap NftTable.lines

/-- A rule with its position, under the line of its chain. -/
def iptablesLine (rule : Rule × ℕ) : List Char :=
  digits (rule.2 + 1) ++ ' ' :: (spaces (rule.2 + 1) 4 ++ rule.1.text)

def Chain.title (chain : Chain) : List Char :=
  "Chain ".toList ++ (chain.name.text ++ ' ' :: '(' :: (chain.info.text ++ [')']))

/-- Chains stand under each other with an empty line between them. -/
def Chain.lines (chain : Chain × ℕ) : List (List Char) :=
  (if chain.2 = 0 then [] else [[]]) ++
    chain.1.title :: "num  target     prot opt source               destination".toList ::
      chain.1.rules.zipIdx.map iptablesLine

/-- `iptables -L -n --line-numbers`. -/
def iptablesList (chains : List Chain) : List Char := unlines (chains.zipIdx.flatMap Chain.lines)

/-- `firewall_rules_for`, on what the tool prints for its rules. -/
def firewallRulesFor : Rules → List Value
  | .ufw rules => (parseUfwRules (ufwStatus rules)).map (tagged "ufw")
  | .firewalld zone running _ =>
    (parseFirewalldRules (zone.text ++ ['\n']) (wordList running.services)
      (wordList running.ports) (unlines (running.rich.map Rule.text))).map (tagged "firewalld")
  | .nftables tables =>
    (parseNftRules (unlines ((nftLines tables).map Prod.fst))).map (tagged "nftables")
  | .iptables chains => (parseIptablesRules (iptablesList chains)).map (tagged "iptables")

/-! ## What the tools remove -/

/-- Where a rule stands. -/
inductive Place
  | ufw (i : ℕ)
  | service (i : ℕ)
  | port (i : ℕ)
  | rich (i : ℕ)
  | nftables (t c r : ℕ)
  | iptables (c r : ℕ)

def NftPlaced.place (p : NftPlaced) : Place := .nftables p.t p.c p.r

def NftChain.erase (r : ℕ) (chain : NftChain) : NftChain :=
  { chain with rules := chain.rules.eraseIdx r }

def NftTable.erase (c r : ℕ) (table : NftTable) : NftTable :=
  { table with chains := table.chains.modify c (NftChain.erase r) }

def Chain.erase (r : ℕ) (chain : Chain) : Chain := { chain with rules := chain.rules.eraseIdx r }

/-- The rules without one of them. -/
def Rules.erase : Place → Rules → Rules
  | .ufw i, .ufw rules => .ufw (rules.eraseIdx i)
  | .service i, .firewalld zone running permanent =>
    .firewalld zone { running with services := running.services.eraseIdx i } permanent
  | .port i, .firewalld zone running permanent =>
    .firewalld zone { running with ports := running.ports.eraseIdx i } permanent
  | .rich i, .firewalld zone running permanent =>
    .firewalld zone { running with rich := running.rich.eraseIdx i } permanent
  | .nftables t c r, .nftables tables => .nftables (tables.modify t (NftTable.erase c r))
  | .iptables c r, .iptables chains => .iptables (chains.modify c (Chain.erase r))
  | _, rules => rules

/-- Rules are counted from one. -/
def eraseNumber {α : Type} (number : String) (l : List α) : List α :=
  match parseUnsigned 64 number with
  | some (k + 1) => l.eraseIdx k
  | _ => l

def NftChain.eraseHandle (handle : String) (chain : NftChain) : NftChain :=
  { chain with
    rules := chain.rules.filter fun r => some r.handle.toNat ≠ parseUnsigned 64 handle }

def NftTable.eraseHandle (chain handle : String) (table : NftTable) : NftTable :=
  { table with
    chains := table.chains.map fun c =>
      if c.name.text = chain.toList then c.eraseHandle handle else c }

/-- What the tools do with their arguments; without the rule that is named they do nothing. -/
def Rules.exec : List String → Rules → Rules
  | ["ufw", "--force", "delete", number], .ufw rules => .ufw (eraseNumber number rules)
  | ["firewall-cmd", "--permanent", "--remove-service", service], .firewalld zone running kept =>
    .firewalld zone running
      { kept with services := kept.services.filter (·.val ≠ service.toList) }
  | ["firewall-cmd", "--permanent", "--remove-port", port], .firewalld zone running kept =>
    .firewalld zone running { kept with ports := kept.ports.filter (·.val ≠ port.toList) }
  | ["nft", "delete", "rule", family, table, chain, "handle", handle], .nftables tables =>
    .nftables <| tables.map fun t =>
      if (t.family.text, t.name.text) = (family.toList, table.toList) then
        t.eraseHandle chain handle
      else t
  | ["iptables", "-D", chain, number], .iptables chains =>
    .iptables <| chains.map fun c =>
      if c.name.text = chain.toList then { c with rules := eraseNumber number c.rules } else c
  | _, rules => rules

/-- No two tables, chains or rules that a command could mean. -/
def Rules.Unique : Rules → Prop
  | .nftables tables =>
    (tables.map fun t => (t.family.text, t.name.text)).Nodup ∧
      ∀ t ∈ tables, (t.chains.map fun c => c.name.text).Nodup ∧
        ∀ c ∈ t.chains, (c.rules.map NftRule.handle).Nodup
  | .iptables chains => (chains.map fun c => c.name.text).Nodup
  | _ => True

structure Firewall where
  rules : Rules
  unique : rules.Unique

/-! ## The law -/

/-- The rules behind the rows of the listing, in their order. -/
def Rules.shown : Rules → List (Option Place)
  | .ufw rules => rules.zipIdx.map fun r => some (.ufw r.2)
  | .firewalld _ running _ =>
    running.services.zipIdx.map (fun w => some (.service w.2)) ++
      running.ports.zipIdx.map (fun w => some (.port w.2)) ++
      running.rich.zipIdx.map fun r => some (.rich r.2)
  | .nftables tables =>
    ((nftLines tables).filter fun l => isNftRule l.1).map fun l => l.2.map NftPlaced.place
  | .iptables chains => chains.zipIdx.flatMap fun (chain, c) =>
    chain.rules.zipIdx.map fun r => some (.iptables c r.2)

/-- The request that sends a row back. -/
def removeRequest (user password : String) (row : Value) : Value :=
  .object [("action", .string "firewall_remove_rule"), ("rule", row),
    ("backend", (row.get "backend").getD .null), ("password", .string password),
    ("_user", .string user)]

/-- The row is for a rule, and the one command that it leads to takes that rule away. -/
def Removes (rules : Rules) (place : Option Place) (row : Value) : Prop :=
  ∃ p, place = some p ∧ ∀ (u : Alphanumeric) (user password : String), hasNul user = false →
    ∃ argv, (∀ c, (networkDispatch u (removeRequest user password row)).Asks (.run c) ↔
        c = ⟨some user, "sudo" :: "-S" :: "-k" :: argv, some (password ++ "\n")⟩) ∧
      rules.exec argv = rules.erase p

/-- Every row that is listed can be removed, and only the rule that it shows is. -/
def RemovalLaw (fw : Firewall) : Prop :=
  List.Forall₂ (Removes fw.rules) fw.rules.shown (firewallRulesFor fw.rules)

/-- The numbers have 32 bits and the names of chains no white space.  The rules of `firewalld` are
never removed, and those of `nftables` only from one chain, as far as their handles are the numbers
of their rows. -/
def Fits : Rules → Prop
  | .ufw rules => rules.length < 2 ^ 32
  | .firewalld _ running _ => running.services = [] ∧ running.ports = [] ∧ running.rich = []
  | .nftables tables =>
    ∀ l ∈ ((nftLines tables).filter fun l => isNftRule l.1).zipIdx, ∃ p, l.1.2 = some p ∧
      p.table.family.text = "inet".toList ∧ p.table.name.text = "filter".toList ∧
      p.chain.name.text = "input".toList ∧ p.rule.handle = UInt64.ofNat (l.2 + 1)
  | .iptables chains => ∀ chain ∈ chains, chain.rules ≠ [] →
    chain.name.text ≠ [] ∧ (∀ c ∈ chain.name.text, isWhitespace c = false) ∧
      chain.rules.length < 2 ^ 32

end Tenodera.Agent.FirewallRules

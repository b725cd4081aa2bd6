import Mathlib.Algebra.Group.Int.Defs
import Tenodera.Agent.GrepOutput
import Tenodera.Agent.Networking
import Tenodera.Agent.UserPasswords

/-!
# Numbers in requests

The VLAN id and the group id come as 64-bit numbers and are cut to 32 bits on their way into a
command; ports come as texts.  `numeric_law_iff` says for which requests every command that changes
the host has the number of the request among its arguments.
-/

namespace Tenodera.Agent.NumericParams

open Protocol Host Effect

/-! ## Groups -/

/-- `create_group`. -/
def createGroup (name : String) (gid : Option UInt32) (user password : String) : HostM Value :=
  if ¬ Users.isValidGroupname name then
    pure (errorValue ("Invalid group name. Must be 1-32 chars, start with lowercase letter or " ++
      "_, contain only lowercase letters, digits, hyphens, underscores."))
  else
    sudoAsUser user password (["groupadd"] ++
      ((gid.map fun id => ["-g", decimal id.toNat]).getD []) ++ ["--", name])

/-- The action `create_group`; the number is cut to 32 bits. -/
def createGroupAction (data : Value) : HostM Value := do
  let name := strField data "name"
  let user := strField data "_user"
  let gid := ((data.get "gid").bind Value.asU64).map UInt64.toUInt32
  let r ← createGroup name gid user (strField data "password")
  let _ ← perform (.audit user "group.create" name (r.get "error").isNone "")
  return r

/-! ## Numeric parameters -/

/-- A JSON integer as `serde_json` keeps it; what has no place in 64 bits becomes a float. -/
def integer (n : ℤ) : Number :=
  if 0 ≤ n ∧ n < 2 ^ 64 then .posInt (UInt64.ofNat n.toNat)
  else if -2 ^ 63 ≤ n ∧ n < 0 then .negInt (Int64.ofInt n)
  else .float (toString n)

/-- The text of an integer. -/
def intText : ℤ → String
  | .ofNat n => decimal n
  | .negSucc n => "-" ++ decimal (n + 1)

/-- The parameters of privileged actions that are numbers. -/
inductive Param
  | vlanId
  | gid
  | port

namespace Param

def action : Param → String
  | vlanId => "add_vlan"
  | gid => "create_group"
  | port => "firewall_add_rule"

/-- The field of the request that the parameter is in. -/
def field (data : Value) : Param → Option Value
  | vlanId => data.get "vlan_id"
  | gid => data.get "gid"
  | port => (ruleField data).get "port"

def handle (u : Text.Alphanumeric) (data : Value) : Param → HostM Value
  | gid => createGroupAction data
  | _ => networkDispatch u data

/-- The number stands where the command has it: behind `id` or `-g`; a port behind one of its
flags, or in front of the protocol. -/
def Carries (n : ℤ) (argv : List String) : Param → Prop
  | vlanId => ("id", intText n) ∈ argv.zip argv.tail
  | gid => ("-g", intText n) ∈ argv.zip argv.tail
  | port => (∃ flag ∈ ["port", "--dport", "dport"], (flag, intText n) ∈ argv.zip argv.tail) ∨
    ∃ proto, intText n ++ "/" ++ proto ∈ argv

end Param

/-- A request for the action of a parameter, with an integer for it. -/
structure Request (p : Param) (n : ℤ) where
  data : Value
  action : strField data "action" = p.action
  number : p.field data = some (.number (integer n))

/-- A command that changes the host carries the number. -/
def Carried (p : Param) (n : ℤ) : Op → Prop
  | .run c => (Op.run c).changesState = true → p.Carries n (stripSudo c.argv)
  | _ => True

/-- Every command that the request leads to carries its number, or it is rejected. -/
def NumericLaw (u : Text.Alphanumeric) {p : Param} {n : ℤ} (r : Request p n) : Prop :=
  (p.handle u r.data).Only (Carried p n)

/-- The number has 32 bits, or the request goes no further: a VLAN id that is cut to none from 1 to
4094, an invalid name, a user that no host knows.  A port that is an integer is always rejected, as
it is not read next to a service for `firewalld`. -/
def Fits (u : Text.Alphanumeric) (data : Value) (n : ℤ) (p : Param) : Prop :=
  Text.hasNul (strField data "_user") = true ∨
    match p with
    | .vlanId => n < 2 ^ 32 ∨ 2 ^ 64 ≤ n ∨ n % 2 ^ 32 = 0 ∨ 4094 < n % 2 ^ 32 ∨
      isNameOf u ['-', '_'] (strField data "parent") = false
    | .gid => (0 ≤ n ∧ n < 2 ^ 32) ∨ Users.isValidGroupname (strField data "name") = false
    | .port => ruleBackend data ∈ [some .ufw, some .nftables, some .iptables] ∨
      ∀ service, ((ruleField data).get "service").bind Value.asStr = some service →
        validateServiceName service = false

/-! ## Integers -/

section

variable {n : ℤ} {p : Param} {user password : String} {args : List String}

theorem asU64_integer (n : ℤ) : (Value.number (integer n)).asU64 =
    if 0 ≤ n ∧ n < 2 ^ 64 then some (UInt64.ofNat n.toNat) else none := by
  unfold integer
  split_ifs <;> rfl

theorem decimal_inj {m k : ℕ} (h : decimal m = decimal k) : m = k := by
  have hdigits : Nat.toDigits 10 m = Nat.toDigits 10 k := String.ofList_injective h
  rw [← Nat.ofDigitChars_ten_toDigits (n := m), hdigits, Nat.ofDigitChars_ten_toDigits]

/-- A number is not a word. -/
theorem decimal_ne {s : String} (h : s.toList.any (!·.isDigit) = true) (m : ℕ) :
    decimal m ≠ s := by
  rintro rfl
  obtain ⟨c, hc, hdigit⟩ := List.any_eq_true.1 h
  rw [decimal, String.toList_ofList] at hc
  rw [GrepOutput.digit_of_mem_toDigits hc] at hdigit
  cases hdigit

theorem intText_of_nonneg (h : 0 ≤ n) : intText n = decimal n.toNat := by
  obtain ⟨m, rfl⟩ := Int.eq_ofNat_of_zero_le h
  rfl

theorem intText_ne (hn : 0 ≤ n) {s : String} (h : s.toList.any (!·.isDigit) = true) :
    intText n ≠ s := by
  rw [intText_of_nonneg hn]
  exact decimal_ne h n.toNat

/-- The text of an integer that is not negative is that of a number iff they are the same. -/
theorem intText_eq_decimal_iff {m : ℕ} (h : 0 ≤ n) : intText n = decimal m ↔ n = m := by
  rw [intText_of_nonneg h]
  constructor
  · intro hdecimal
    have hnat := decimal_inj hdecimal
    omega
  · rintro rfl
    rfl

/-! ## Programs -/

theorem only_of_quiet {α : Type} {prog : HostM α} (h : Quiet prog) : prog.Only (Carried p n) := by
  intro o ho
  have hquiet : o.changesState = false := h o ho
  cases o with
  | run c => exact fun hchanges => absurd (hquiet.symm.trans hchanges) (by decide)
  | _ => trivial

/-- What runs through `sudo` carries the number if the user and the arguments have no NUL. -/
theorem only_sudoAsUser_iff (hargs : observes args = false) :
    (sudoAsUser user password args).Only (Carried p n) ↔
      (Text.hasNul user = false → args.any Text.hasNul = false → p.Carries n args) := by
  have hchanges (c : Command) (hc : c.argv = "sudo" :: "-S" :: "-k" :: args) :
      (Op.run c).changesState = true ∧ stripSudo c.argv = args := by
    have hstrip : stripSudo ("sudo" :: "-S" :: "-k" :: args) = args := rfl
    rw [Op.changesState, hc, hstrip, hargs]
    exact ⟨rfl, rfl⟩
  constructor
  · intro h huser hnul
    let c : Command := ⟨some user, "sudo" :: "-S" :: "-k" :: args, some (password ++ "\n")⟩
    have hasks : (sudoAsUser user password args).Asks (.run c) :=
      asks_sudoAsUser_iff.2 ⟨⟨huser, hnul⟩, rfl⟩
    have hcarried := h (.run c) hasks (hchanges c rfl).1
    rwa [(hchanges c rfl).2] at hcarried
  · intro h o ho
    cases o with
    | run c =>
      intro _
      obtain ⟨⟨huser, hnul⟩, rfl⟩ := asks_sudoAsUser_iff.1 ho
      rw [(hchanges _ rfl).2]
      exact h huser hnul
    | _ => trivial

theorem returns_which {cmd : String} (hcmd : Text.hasNul cmd = false) (b : Bool) :
    (which cmd).Returns b := by
  have hargs : ["which", cmd].any Text.hasNul = false := by
    have hwhich : Text.hasNul "which" = false := by decide
    simp [hcmd, hwhich]
  refine (Prog.returns_bind _ _ _).2 ⟨.ok ⟨b, "", "", false⟩, returns_run hargs _, ?_⟩
  exact (Prog.returns_pure _ _).2 rfl

/-- The command is made from what `which` says. -/
theorem only_which_iff {cmd : String} (hcmd : Text.hasNul cmd = false)
    {f g : HostM Value} : (do if ← which cmd then f else g).Only (Carried p n) ↔
      f.Only (Carried p n) ∧ g.Only (Carried p n) := by
  rw [Prog.only_bind_iff, and_iff_right (only_of_quiet (quiet_which cmd))]
  constructor
  · exact fun h => ⟨h true (returns_which hcmd true), h false (returns_which hcmd false)⟩
  · rintro ⟨hf, hg⟩ (_ | _) -
    · exact hg
    · exact hf

/-! ## VLANs -/

/-- Both commands for a VLAN carry the number they are made with. -/
theorem carries_vlan_iff (hn : 0 ≤ n) (k : ℕ) (parent name : String) :
    (Param.vlanId.Carries n ["nmcli", "connection", "add", "type", "vlan", "ifname", name, "dev",
        parent, "id", decimal k] ↔ n = k) ∧
      (Param.vlanId.Carries n ["ip", "link", "add", "link", parent, "name", name, "type", "vlan",
        "id", decimal k] ↔ n = k) := by
  have hwords : intText n ≠ "dev" ∧ intText n ≠ "id" ∧ intText n ≠ "name" ∧ intText n ≠ "type" :=
    ⟨intText_ne hn (by decide), intText_ne hn (by decide), intText_ne hn (by decide),
      intText_ne hn (by decide)⟩
  simp [Param.Carries, hwords, intText_eq_decimal_iff hn]

theorem natField_vlan {data : Value} (h : data.get "vlan_id" = some (.number (integer n))) :
    natField data "vlan_id" 0 = if 0 ≤ n ∧ n < 2 ^ 64 then n.toNat else 0 := by
  rw [natField, h, Option.bind_some, asU64_integer]
  split_ifs with hn
  · rw [Option.map_some, Option.getD_some, UInt64.toNat_ofNat']
    exact Nat.mod_eq_of_lt (by omega)
  · rfl

/-- Names of interfaces have no NUL. -/
theorem hasNul_of_isNameOf {u : Text.Alphanumeric} {name : String}
    (h : isNameOf u ['-', '_'] name = true) : Text.hasNul name = false := by
  rw [isNameOf, Bool.and_eq_true, List.all_eq_true] at h
  refine decide_eq_false fun hnul => ?_
  have hmem := h.2 _ hnul
  rw [u.mem_nul] at hmem
  revert hmem
  decide

/-- `add_vlan` runs a command, which carries the number that it is given. -/
theorem only_addVlan_iff (u : Text.Alphanumeric) (parent : String) (k : ℕ) (hn : 0 ≤ n) :
    (addVlan u user password parent k).Only (Carried .vlanId n) ↔
      (k = 0 ∨ 4094 < k ∨ isNameOf u ['-', '_'] parent = false ∨ Text.hasNul user = true ∨
        n = k) := by
  unfold addVlan
  split_ifs with hrange hname
  · refine iff_of_true (Prog.only_pure _) ?_
    rcases hrange with rfl | hrange | hrange
    · exact .inr (.inr (.inl rfl))
    · exact .inl hrange
    · exact .inr (.inl hrange)
  · have hnul := hasNul_of_isNameOf hname
    have hpoint : Text.hasNul "." = false := by decide
    have hnameNul : Text.hasNul (parent ++ "." ++ decimal k) = false := by
      rw [Text.hasNul_append, Text.hasNul_append, hnul, hpoint, hasNul_decimal]
      rfl
    have hfixed : ∀ s ∈ ["nmcli", "connection", "add", "type", "vlan", "ifname", "dev", "id", "ip",
        "link", "name"], Text.hasNul s = false := by decide
    simp only [List.forall_mem_cons] at hfixed
    obtain ⟨hnmcli, hip⟩ := carries_vlan_iff hn k parent (parent ++ "." ++ decimal k)
    have hrange' : k ≠ 0 ∧ ¬ 4094 < k := ⟨fun hk => hrange (.inr (.inl hk)),
      fun hk => hrange (.inr (.inr hk))⟩
    dsimp only
    rw [only_which_iff hfixed.1, only_sudoAsUser_iff rfl, only_sudoAsUser_iff rfl, hnmcli, hip]
    simp only [List.any_cons, List.any_nil, hfixed, hnul, hnameNul, hasNul_decimal, hname,
      hrange'.1, hrange'.2, Bool.or_false, forall_const, and_self, false_or, reduceCtorEq]
    rw [← Bool.not_eq_true, ← or_iff_not_imp_left]
  · exact iff_of_true (Prog.only_pure _) (.inr (.inr (.inl (Bool.eq_false_iff.2 hname))))

/-! ## The laws -/

theorem vlan_law_iff (u : Text.Alphanumeric) (r : Request .vlanId n) :
    NumericLaw u r ↔ Fits u r.data n .vlanId := by
  have haction : strField r.data "action" = "add_vlan" := r.action
  have hhandle : Param.vlanId.handle u r.data = addVlan u (strField r.data "_user")
      (strField r.data "password") (strField r.data "parent")
      (natField r.data "vlan_id" 0 % 2 ^ 32) := by
    show networkDispatch u r.data = _
    unfold networkDispatch
    simp only [haction]
  rw [NumericLaw, hhandle, natField_vlan r.number]
  unfold Fits
  split_ifs with hn
  · rw [only_addVlan_iff u _ _ hn.1]
    by_cases huser : Text.hasNul (strField r.data "_user") = true
    · simp [huser]
    · by_cases hname : isNameOf u ['-', '_'] (strField r.data "parent") = false
      · simp [hname]
      · simp only [huser, hname, Bool.false_eq_true, Bool.true_eq_false, false_or, or_false]
        omega
  · have hzero : addVlan u (strField r.data "_user") (strField r.data "password")
        (strField r.data "parent") (0 % 2 ^ 32) =
          pure (errorValue "invalid parent or VLAN ID (1-4094)") := if_pos (.inr (.inl rfl))
    rw [hzero]
    refine iff_of_true (Prog.only_pure _) (.inr ?_)
    dsimp only
    omega

theorem carries_gid_iff (k : ℕ) (name : String) :
    Param.gid.Carries n ["groupadd", "-g", decimal k, "--", name] ↔ intText n = decimal k := by
  have hflag : "-g" ≠ decimal k := (decimal_ne (by decide) k).symm
  simp [Param.Carries, hflag]

/-- `create_group` runs a command, which carries the number if there is one. -/
theorem only_createGroup_iff (name : String) (gid : Option UInt32) :
    (createGroup name gid user password).Only (Carried .gid n) ↔
      (Users.isValidGroupname name = false ∨ Text.hasNul user = true ∨
        ∃ id, gid = some id ∧ intText n = decimal id.toNat) := by
  unfold createGroup
  split_ifs with hname
  · have hnul : Text.hasNul name = false :=
      decide_eq_false (Users.notMem_of_isValidUsername hname (by decide))
    have hfixed : ∀ s ∈ ["groupadd", "-g", "--"], Text.hasNul s = false := by decide
    simp only [List.forall_mem_cons] at hfixed
    rw [only_sudoAsUser_iff rfl]
    cases gid with
    | none =>
      have hcarries : ¬ Param.gid.Carries n ["groupadd", "--", name] := by simp [Param.Carries]
      simp [hfixed, hnul, hname, hcarries]
    | some id =>
      have hcarries := carries_gid_iff (n := n) id.toNat name
      simp [hfixed, hnul, hname, hasNul_decimal, hcarries, or_iff_not_imp_left]
  · exact iff_of_true (Prog.only_pure _) (.inl (Bool.eq_false_iff.2 hname))

theorem gid_law_iff (u : Text.Alphanumeric) (r : Request .gid n) :
    NumericLaw u r ↔ Fits u r.data n .gid := by
  have hgid : ((r.data.get "gid").bind Value.asU64).map UInt64.toUInt32 =
      if 0 ≤ n ∧ n < 2 ^ 64 then some (UInt64.ofNat n.toNat).toUInt32 else none := by
    rw [show r.data.get "gid" = _ from r.number, Option.bind_some, asU64_integer]
    split_ifs <;> rfl
  have hhandle : NumericLaw u r ↔ (createGroup (strField r.data "name")
      (((r.data.get "gid").bind Value.asU64).map UInt64.toUInt32) (strField r.data "_user")
      (strField r.data "password")).Only (Carried .gid n) := by
    show (createGroupAction r.data).Only _ ↔ _
    unfold createGroupAction
    rw [Prog.only_bind_iff, and_iff_left]
    intro res _
    exact Prog.Only.bind (Prog.only_perform.2 trivial) fun _ => Prog.only_pure _
  rw [hhandle, hgid, only_createGroup_iff]
  unfold Fits
  by_cases huser : Text.hasNul (strField r.data "_user") = true
  · simp [huser]
  · by_cases hname : Users.isValidGroupname (strField r.data "name") = false
    · simp [hname]
    · simp only [huser, hname, Bool.false_eq_true, Bool.true_eq_false, false_or, or_false]
      split_ifs with hn
      · have hid : (UInt64.ofNat n.toNat).toUInt32.toNat = n.toNat % 2 ^ 32 := by
          rw [UInt64.toNat_toUInt32, UInt64.toNat_ofNat']
          omega
        simp only [Option.some.injEq, exists_eq_left', hid, intText_eq_decimal_iff hn.1]
        omega
      · simp only [false_and, exists_false, false_iff]
        omega

theorem notMem_of_validateServiceName {service : String} {c : Char}
    (h : validateServiceName service = true)
    (hc : (c.isAlphanum || c = '-' || c = '_' || c = '.') = false) : c ∉ service.toList := by
  intro hmem
  rw [validateServiceName, Bool.and_eq_true, List.all_eq_true] at h
  rw [h.2 c hmem] at hc
  cases hc

/-- The command for a service carries no port. -/
theorem not_carries_port {service : String} (h : validateServiceName service = true) :
    ¬ Param.port.Carries n ["firewall-cmd", "--permanent", "--add-service", service] := by
  rintro (⟨flag, hflag, hpair⟩ | ⟨proto, hmem⟩)
  · simp only [List.tail_cons, List.zip_cons_cons, List.zip_nil_right, List.mem_cons,
      Prod.mk.injEq, List.not_mem_nil, or_false] at hpair
    rcases hpair with ⟨rfl, -⟩ | ⟨rfl, -⟩ | ⟨rfl, -⟩ <;> revert hflag <;> decide
  · have hslash : '/' ∈ (intText n ++ "/" ++ proto).toList := by simp
    have hfixed : ∀ s ∈ ["firewall-cmd", "--permanent", "--add-service"], '/' ∉ s.toList := by
      decide
    have hservice : '/' ∉ service.toList := notMem_of_validateServiceName h (by decide)
    generalize intText n ++ "/" ++ proto = text at hmem hslash
    rcases List.mem_cons.1 hmem with rfl | hmem
    · exact hfixed _ (by simp) hslash
    · rcases List.mem_cons.1 hmem with rfl | hmem
      · exact hfixed _ (by simp) hslash
      · rcases List.mem_cons.1 hmem with rfl | hmem
        · exact hfixed _ (by simp) hslash
        · rw [List.mem_singleton.1 hmem] at hslash
          exact hservice hslash

theorem only_addRuleTo_iff {rule : Value} (hport : strField rule "port" = "")
    (backend : Option FirewallBackend) :
    (addRuleTo user password rule backend).Only (Carried .port n) ↔
      (backend = some .firewalld → Text.hasNul user = true ∨
        ∀ service, (rule.get "service").bind Value.asStr = some service →
          validateServiceName service = false) := by
  have hpure (res : Value) : (pure res : HostM Value).Only (Carried .port n) := Prog.only_pure _
  have htable (b : Option FirewallBackend) :
      (tableAddRule user password rule b).Only (Carried .port n) := by
    unfold tableAddRule
    rw [hport]
    exact hpure _
  rcases backend with _ | (_ | _ | _ | _)
  · exact iff_of_true (htable none) (by simp)
  · refine iff_of_true ?_ (by simp)
    show (ufwAddRule user password rule).Only _
    unfold ufwAddRule
    rw [hport]
    exact hpure _
  · show (firewalldAddRule user password rule).Only _ ↔ _
    unfold firewalldAddRule
    rw [hport]
    cases hservice : (rule.get "service").bind Value.asStr with
    | none => exact iff_of_true (hpure _) (by simp)
    | some service =>
      dsimp only
      split_ifs with hvalid
      · have hnul : Text.hasNul service = false :=
          decide_eq_false (notMem_of_validateServiceName hvalid (by decide))
        have hfixed : ∀ s ∈ ["firewall-cmd", "--permanent", "--add-service"],
            Text.hasNul s = false := by decide
        simp only [List.forall_mem_cons] at hfixed
        have hcarries := not_carries_port (n := n) hvalid
        rw [only_sudoAsUser_iff rfl]
        simp [hfixed, hnul, hcarries, hvalid]
      · exact iff_of_true (hpure _) fun _ => .inr fun s hs => by
          cases hs
          exact Bool.eq_false_iff.2 hvalid
  · exact iff_of_true (htable (some .nftables)) (by simp)
  · exact iff_of_true (htable (some .iptables)) (by simp)

/-- On a host that has `firewalld` alone. -/
theorem returns_detectFirewall : Look.detectFirewall.prog.Returns (some .firewalld) := by
  refine (Prog.returns_bind _ _ _).2 ⟨false, returns_which (by decide) false, ?_⟩
  exact (Prog.returns_bind _ _ _).2 ⟨true, returns_which (by decide) true, rfl⟩

theorem port_law_iff (u : Text.Alphanumeric) (r : Request .port n) :
    NumericLaw u r ↔ Fits u r.data n .port := by
  have haction : strField r.data "action" = "firewall_add_rule" := r.action
  have hhandle : Param.port.handle u r.data = firewallAddRule (strField r.data "_user")
      (strField r.data "password") (ruleField r.data) (ruleBackend r.data) := by
    show networkDispatch u r.data = _
    unfold networkDispatch
    simp only [haction]
  have hport : strField (ruleField r.data) "port" = "" := by
    have hnumber : (ruleField r.data).get "port" = some (.number (integer n)) := r.number
    rw [strField, hnumber]
    rfl
  rw [NumericLaw, hhandle]
  unfold Fits
  cases hbackend : ruleBackend r.data with
  | none =>
    show (do addRuleTo _ _ _ (← Look.detectFirewall.prog)).Only _ ↔ _
    rw [Prog.only_bind_iff, and_iff_right (only_of_quiet Look.detectFirewall.quiet)]
    simp only [only_addRuleTo_iff hport]
    constructor
    · exact fun h => (h _ returns_detectFirewall rfl).imp_right .inr
    · exact fun h _ _ _ => h.imp_right fun h => h.resolve_left (by decide)
  | some backend =>
    rw [firewallAddRule, only_addRuleTo_iff hport]
    cases backend with
    | firewalld => simp
    | ufw => simp
    | nftables => simp
    | iptables => simp

end

/-- A request keeps its number, or is rejected, exactly when it fits. -/
theorem numeric_law_iff (u : Text.Alphanumeric) {p : Param} {n : ℤ} (r : Request p n) :
    NumericLaw u r ↔ Fits u r.data n p := by
  cases p with
  | vlanId => exact vlan_law_iff u r
  | gid => exact gid_law_iff u r
  | port => exact port_law_iff u r

/-- A group with a number that begins to count again from zero in 32 bits. -/
def zeroGroup : Request .gid (2 ^ 32) where
  data := .object [("action", .string "create_group"), ("name", .string "staff2"),
    ("gid", .number (integer (2 ^ 32))), ("_user", .string "admin"), ("password", .string "p")]
  action := rfl
  number := rfl

/-- It would be a group with the number of `root`. -/
theorem zeroGroup_cut : ¬ NumericLaw Text.asciiAlphanumeric zeroGroup := by
  rw [gid_law_iff]
  rintro (huser | ⟨-, hn⟩ | hname)
  · revert huser
    decide
  · exact lt_irrefl _ hn
  · revert hname
    decide +kernel

end Tenodera.Agent.NumericParams

import Tenodera.Agent.IniConfig
import Tenodera.Lib.Columns
import Tenodera.Lib.Run
import Tenodera.Protocol.Message

/-!
# Automatic updates

What `autoupdate_status` shows is read out of the files of `unattended-upgrades` or `dnf-automatic`
and of a timer; what `autoupdate_set` is given in part it completes by what is shown, and writes all
of it.  Seen from outside the files are a record of settings that requests change in part
(`apt_settings_of_run`, `dnf_settings_of_run`), but for what is lost while the updates are off.
-/

namespace Tenodera.Agent.AutoUpdates

open Protocol Text Transition
open IniConfig (iniGet iniSet)

/-! ## Timers -/

/-- How `systemd` shows the calendar of a timer: in a normal form, which is empty when it rejects
the text. -/
structure Systemd where
  normal : List Char → List Char
  normal_normal : ∀ spec, normal (normal spec) = normal spec
  trimmed_normal : ∀ spec, trimmed (normal spec) = normal spec
  semicolon : ∀ spec, ';' ∉ normal spec

/-- What `systemctl show -p TimersCalendar --value` prints. -/
def timersCalendar (calendar next : List Char) : List Char :=
  if calendar = [] then []
  else "\x7b OnCalendar=".toList ++ calendar ++ " ; next_elapse=".toList ++ next ++ " \x7d\n".toList

/-- `parse_oncalendar`. -/
def parseOncalendar (s : List Char) : List Char :=
  match Utf8.splitFound "OnCalendar=".toList s with
  | some (_, found) =>
    let rest := found.drop "OnCalendar=".length
    let spec := (Utf8.splitFound " ; ".toList rest <|> Utf8.splitFound ['}'] rest).map Prod.fst
    trimmed (spec.getD rest)
  | none => []

/-- `is_valid_oncalendar`. -/
def isValidOncalendar (s : List Char) : Bool :=
  s ≠ [] ∧ Utf8.size s ≤ 100 ∧ s.all fun c => c.isAlphanum || c ∈ " :,-*/.".toList

/-- `is_valid_hhmm`. -/
def isValidHhmm : List Char → Bool
  | [a, b, ':', c, d] => [a, b, c, d].all Char.isDigit
  | _ => false

/-! ## Settings -/

/-- What the status shows, apart from the state of the package and of the timer. -/
@[ext]
structure Settings where
  enabled : Bool
  mode : List Char
  scope : List Char
  schedule : List Char
  reboot : Bool
  rebootTime : List Char
  removeUnused : Bool
  deriving DecidableEq

/-- `au_bool`. -/
def auBool (data : Value) (key : String) : Option Bool := (data.get key).bind Value.asBool

/-- `au_str`. -/
def auStr (data : Value) (key : String) : Option (List Char) :=
  ((data.get key).bind Value.asStr).map String.toList

/-- The settings of a request, with those that are shown in the place of missing ones. -/
def Settings.merge (cur : Settings) (data : Value) : Settings where
  enabled := (auBool data "enabled").getD cur.enabled
  mode := (auStr data "mode").getD cur.mode
  scope := (auStr data "scope").getD cur.scope
  schedule := (auStr data "schedule").getD cur.schedule
  reboot := (auBool data "reboot").getD cur.reboot
  rebootTime := (auStr data "reboot_time").getD cur.rebootTime
  removeUnused := (auBool data "remove_unused").getD cur.removeUnused

/-- Which of the commands of a request succeed. -/
structure Attempt where
  installs : Bool
  writes : Bool
  writesSecond : Bool
  makesDir : Bool
  writesTimer : Bool
  switchesTimer : Bool
  deriving DecidableEq

def modes : List (List Char) := ["install".toList, "download".toList]

def scopes : List (List Char) := ["all".toList, "security".toList]

/-- A timer's calendar is shown as `systemd` keeps it. -/
def Calendar (sys : Systemd) : Type := {spec : List Char // sys.normal spec = spec}

/-- `set_timer_schedule`. -/
def setTimerSchedule (sys : Systemd) (o : Attempt) (oncalendar : List Char) :
    Except String (Calendar sys) :=
  if ¬ isValidOncalendar oncalendar then .error "invalid schedule"
  else if ¬ o.makesDir ∨ ¬ o.writesTimer then .error "operation failed"
  else .ok ⟨sys.normal oncalendar, sys.normal_normal oncalendar⟩

/-- The calendar after a request, which leaves it alone when the schedule is blank. -/
def reschedule (sys : Systemd) (o : Attempt) (schedule : List Char) (calendar : Calendar sys) :
    Except String (Calendar sys) :=
  if trimmed schedule = [] then .ok calendar else setTimerSchedule sys o schedule

/-! ## apt -/

/-- The loop of `apt_periodic_value`. -/
def periodicLoop (needle : List Char) : List (List Char) → Option (List Char)
  | [] => none
  | line :: rest =>
    let l := trimmed line
    if "//".toList <+: l ∨ l.head? = some '#' then periodicLoop needle rest
    else if needle <+: l then
      let v := (l.drop needle.length).filter Char.isDigit
      if v ≠ [] then some v else periodicLoop needle rest
    else periodicLoop needle rest

/-- `apt_periodic_value`. -/
def aptPeriodicValue (conf key : List Char) : Option (List Char) :=
  periodicLoop ("APT::Periodic::".toList ++ key) (linesOf conf)

/-- The text between the first two quotes. -/
def quoted (rest : List Char) : Option (List Char) :=
  (Words.splitOnce (· = '"') rest).bind fun s =>
    (Words.splitOnce (· = '"') s.2).map Prod.fst

/-- The loop of `apt_uu_raw`, which a directive without a quoted value ends. -/
def rawLoop (needle : List Char) : List (List Char) → Option (List Char)
  | [] => none
  | line :: rest =>
    let l := trimmed line
    if "//".toList <+: l ∨ l.head? = some '#' then rawLoop needle rest
    else if needle <+: l then quoted (l.drop needle.length)
    else rawLoop needle rest

/-- What the directives of `unattended-upgrades` begin with. -/
def upgradePrefix : List Char := "Unattended-Upgrade::".toList

/-- `apt_uu_raw`. -/
def aptUuRaw (conf opt : List Char) : Option (List Char) :=
  rawLoop (upgradePrefix ++ opt) (linesOf conf)

/-- `eq_ignore_ascii_case`. -/
def eqIgnoreAsciiCase (s t : List Char) : Bool := s.map Char.toLower = t.map Char.toLower

/-- `apt_uu_bool`. -/
def aptUuBool (conf opt : List Char) : Option Bool :=
  (aptUuRaw conf opt).map fun v => eqIgnoreAsciiCase v "true".toList || v = "1".toList

/-- `build_apt_periodic`. -/
def buildAptPeriodic (enabled : Bool) (mode : List Char) : List Char :=
  let unattended := if enabled ∧ mode = "install".toList then "1" else "0"
  let download := if enabled then "1" else "0"
  unlines ["// Managed by Tenodera".toList,
    "APT::Periodic::Update-Package-Lists \"1\";".toList,
    "APT::Periodic::Download-Upgradeable-Packages \"".toList ++ download.toList ++ "\";".toList,
    "APT::Periodic::Unattended-Upgrade \"".toList ++ unattended.toList ++ "\";".toList]

/-- A directive with its value. -/
def directive (opt value : List Char) : List Char :=
  upgradePrefix ++ opt ++ [' ', '"'] ++ value ++ ['"', ';']

def boolText (b : Bool) : List Char := if b then "true".toList else "false".toList

/-- The lines in front of the options. -/
def originLines (scope : List Char) : List (List Char) :=
  ["// Managed by Tenodera — do not edit by hand".toList,
    "Unattended-Upgrade::Allowed-Origins \x7b \x7d;".toList,
    "Unattended-Upgrade::Origins-Pattern \x7b".toList,
    "    \"origin=$\x7bdistro_id\x7d,codename=$\x7bdistro_codename\x7d-security,label=*\";".toList,
    "    \"origin=$\x7bdistro_id\x7dESMApps,".toList ++
      "codename=$\x7bdistro_codename\x7d-apps-security\";".toList,
    "    \"origin=$\x7bdistro_id\x7dESM,".toList ++
      "codename=$\x7bdistro_codename\x7d-infra-security\";".toList] ++
    (if scope = "all".toList then
      ["    \"origin=$\x7bdistro_id\x7d,codename=$\x7bdistro_codename\x7d-updates\";".toList,
        "    \"origin=$\x7bdistro_id\x7d,codename=$\x7bdistro_codename\x7d\";".toList]
    else []) ++ ["\x7d;".toList]

/-- `build_apt_tenodera`. -/
def buildAptTenodera (scope : List Char) (reboot : Bool) (rebootTime : List Char)
    (removeUnused : Bool) : List Char :=
  unlines (originLines scope ++
    [directive "Automatic-Reboot".toList (boolText reboot),
      directive "Automatic-Reboot-Time".toList rebootTime,
      directive "Remove-Unused-Dependencies".toList (boolText removeUnused)])

/-- The package, the two files of configuration, empty when they are missing, and the timer. -/
structure AptHost (sys : Systemd) where
  installed : Bool
  periodic : List Char
  managed : List Char
  calendar : Calendar sys
  next : List Char

section

variable {sys : Systemd}

/-- `apt_status`. -/
def aptStatus (h : AptHost sys) : Settings :=
  let unattended := aptPeriodicValue h.periodic "Unattended-Upgrade".toList = some ['1']
  let download := aptPeriodicValue h.periodic "Download-Upgradeable-Packages".toList = some ['1']
  { enabled := h.installed ∧ (unattended ∨ download)
    mode := if unattended then "install".toList else "download".toList
    scope := if "-updates".toList <:+: h.managed then "all".toList else "security".toList
    schedule := parseOncalendar (timersCalendar h.calendar.1 h.next)
    reboot := (aptUuBool h.managed "Automatic-Reboot".toList).getD false
    rebootTime := (aptUuRaw h.managed "Automatic-Reboot-Time".toList).getD "02:00".toList
    removeUnused := (aptUuBool h.managed "Remove-Unused-Dependencies".toList).getD false }

/-- `apt_set`, as far as a request is answered without an error. -/
def aptSet (o : Attempt) (data : Value) (h : AptHost sys) : Except String (AptHost sys) :=
  let s := (aptStatus h).merge data
  if s.mode ∉ modes then .error "invalid mode"
  else if s.scope ∉ scopes then .error "invalid scope"
  else if ¬ isValidHhmm s.rebootTime then .error "invalid reboot time (expected HH:MM)"
  else if s.enabled ∧ ¬ h.installed ∧ ¬ o.installs then .error "operation failed"
  else if ¬ o.writes ∨ ¬ o.writesSecond then .error "operation failed"
  else
    (reschedule sys o s.schedule h.calendar).map fun calendar =>
      { installed := h.installed || s.enabled
        periodic := buildAptPeriodic s.enabled s.mode
        managed := buildAptTenodera s.scope s.reboot s.rebootTime s.removeUnused
        calendar
        next := h.next }

end

/-! ## dnf -/

/-- The tool, its configuration if there is one, and the timer. -/
structure DnfHost (sys : Systemd) where
  found : Bool
  conf : Option (List Char)
  calendar : Calendar sys
  next : List Char
  /-- Enabled or active. -/
  timerOn : Bool

def dnfEntries (s : Settings) : List IniConfig.Entry :=
  [("download_updates".toList, "yes".toList),
    ("apply_updates".toList, if s.mode = "install".toList then "yes".toList else "no".toList),
    ("upgrade_type".toList,
      if s.scope = "security".toList then "security".toList else "default".toList),
    ("reboot".toList, if s.reboot then "when-needed".toList else "never".toList)]

section

variable {sys : Systemd}

/-- `dnf_status`. -/
def dnfStatus (h : DnfHost sys) : Settings :=
  let conf := h.conf.getD []
  let apply := (iniGet conf "commands".toList "apply_updates".toList).getD []
  let upgradeType := (iniGet conf "commands".toList "upgrade_type".toList).getD "default".toList
  let reboot := (iniGet conf "commands".toList "reboot".toList).getD "never".toList
  { enabled := h.timerOn
    mode := if eqIgnoreAsciiCase apply "yes".toList then "install".toList else "download".toList
    scope :=
      if eqIgnoreAsciiCase upgradeType "security".toList then "security".toList else "all".toList
    schedule := parseOncalendar (timersCalendar h.calendar.1 h.next)
    reboot := ¬ eqIgnoreAsciiCase reboot "never".toList
    rebootTime := []
    removeUnused := false }

/-- `dnf_set`, as far as a request is answered without an error; `packaged` is the configuration
that comes with the package. -/
def dnfSet (packaged : Option (List Char)) (o : Attempt) (data : Value) (h : DnfHost sys) :
    Except String (DnfHost sys) :=
  let s := (dnfStatus h).merge data
  let missing := ¬ h.found ∧ h.conf = none
  if s.mode ∉ modes then .error "invalid mode"
  else if s.scope ∉ scopes then .error "invalid scope"
  else if ¬ s.enabled then
    if o.switchesTimer then .ok { h with timerOn := false } else .error "operation failed"
  else if missing ∧ ¬ o.installs then .error "operation failed"
  else if ¬ o.writes then .error "operation failed"
  else
    let current := ((if missing then packaged else h.conf).getD [])
    (reschedule sys o s.schedule h.calendar).bind fun calendar =>
      if o.switchesTimer then
        .ok
          { found := true
            conf := some (iniSet current "commands".toList (dnfEntries s))
            calendar
            next := h.next
            timerOn := true }
      else .error "operation failed"

end

/-! ## Settings as a record -/

/-- The schedule that is shown after a request. -/
def Settings.shownSchedule (sys : Systemd) (data : Value) (s : Settings) : List Char :=
  if trimmed (s.merge data).schedule = [] then s.schedule
  else sys.normal (s.merge data).schedule

/-- What a request makes of the settings with `unattended-upgrades`: while the updates are off the
mode is forgotten. -/
def Settings.afterApt (sys : Systemd) (s : Settings) (data : Value) : Settings :=
  { s.merge data with
    mode := if (s.merge data).enabled then (s.merge data).mode else "download".toList
    schedule := s.shownSchedule sys data }

/-- What a request makes of the settings with `dnf-automatic`: one that switches the updates off
changes nothing else. -/
def Settings.afterDnf (sys : Systemd) (s : Settings) (data : Value) : Settings :=
  if (s.merge data).enabled then
    { s.merge data with
      schedule := s.shownSchedule sys data
      rebootTime := s.rebootTime
      removeUnused := s.removeUnused }
  else { s with enabled := false }

/-! ## The timer is read back -/

section

variable {sys : Systemd} {calendar calendar' : Calendar sys} {needle : List Char}
  {lines rest : List (List Char)}

theorem notInfix_calendar {spec : List Char} (h : ';' ∉ spec) :
    ¬ " ; ".toList <:+: (spec ++ " ; ".toList).dropLast := by
  rintro ⟨a, b, hab⟩
  have hlast : (spec ++ " ; ".toList).dropLast = spec ++ [' '] ++ [';'] := by
    rw [List.dropLast_append_of_ne_nil (by decide), List.append_assoc]
    rfl
  rw [hlast] at hab
  rcases List.eq_nil_or_concat' b with rfl | ⟨b, c, rfl⟩
  · have heq := congrArg List.getLast? hab
    simp at heq
  · rw [← List.append_assoc] at hab
    obtain ⟨hinit, -⟩ := List.append_inj' hab rfl
    have hmem : ';' ∈ spec ++ [' '] := hinit ▸ by simp
    simp [h] at hmem

/-- The calendar of a timer is shown as it is kept. -/
theorem parseOncalendar_timersCalendar (calendar : Calendar sys) (next : List Char) :
    parseOncalendar (timersCalendar calendar.1 next) = calendar.1 := by
  obtain ⟨spec, hspec⟩ := calendar
  have htrimmed : trimmed spec = spec := by rw [← hspec, sys.trimmed_normal]
  have hsemicolon : ';' ∉ spec := by rw [← hspec]; exact sys.semicolon spec
  unfold timersCalendar
  split_ifs with hempty
  · rw [hempty]
    rfl
  · set tail := "next_elapse=".toList ++ next ++ " \x7d\n".toList with htail
    have hcut : Utf8.splitFound " ; ".toList (spec ++ (" ; ".toList ++ tail)) =
        some (spec, " ; ".toList ++ tail) :=
      (Utf8.splitFound_append_iff (by decide) spec tail).2 (notInfix_calendar hsemicolon)
    have hfound : Utf8.splitFound "OnCalendar=".toList
        ("\x7b ".toList ++ ("OnCalendar=".toList ++ (spec ++ (" ; ".toList ++ tail)))) =
        some ("\x7b ".toList, "OnCalendar=".toList ++ (spec ++ (" ; ".toList ++ tail))) :=
      (Utf8.splitFound_append_iff (by decide) _ _).2 (by decide)
    have htext : "\x7b OnCalendar=".toList ++ spec ++ " ; next_elapse=".toList ++ next ++
        " \x7d\n".toList =
        "\x7b ".toList ++ ("OnCalendar=".toList ++ (spec ++ (" ; ".toList ++ tail))) := by
      rw [htail]
      simp
    rw [htext, parseOncalendar, hfound]
    have hdrop : ("OnCalendar=".toList ++ (spec ++ (" ; ".toList ++ tail))).drop
        "OnCalendar=".length = spec ++ (" ; ".toList ++ tail) := rfl
    dsimp only
    rw [hdrop, hcut]
    exact htrimmed

theorem schedule_of_reschedule {o : Attempt} {data : Value} {s : Settings} (next : List Char)
    (hs : s.schedule = calendar.1)
    (h : reschedule sys o (s.merge data).schedule calendar = .ok calendar') :
    parseOncalendar (timersCalendar calendar'.1 next) = s.shownSchedule sys data := by
  rw [parseOncalendar_timersCalendar, Settings.shownSchedule]
  unfold reschedule at h
  split_ifs at h ⊢
  · cases h
    exact hs.symm
  · unfold setTimerSchedule at h
    split_ifs at h
    cases h
    rfl

/-! ## The files of apt are read back -/

theorem rawLoop_map_stripCr : rawLoop needle (lines.map stripCr) = rawLoop needle lines := by
  induction lines with
  | nil => rfl
  | cons line rest ih =>
    rw [List.map_cons, rawLoop, rawLoop, trimmed_stripCr]
    simp only [ih]

/-- A line that is passed over in the search of a directive. -/
def Passed (needle line : List Char) : Prop :=
  "//".toList <+: trimmed line ∨ (trimmed line).head? = some '#' ∨ ¬ needle <+: trimmed line

instance (needle line : List Char) : Decidable (Passed needle line) :=
  inferInstanceAs (Decidable (_ ∨ _))

theorem rawLoop_append (h : ∀ line ∈ lines, Passed needle line) :
    rawLoop needle (lines ++ rest) = rawLoop needle rest := by
  induction lines with
  | nil => rfl
  | cons line lines ih =>
    have hline : Passed needle line := h line List.mem_cons_self
    rw [List.cons_append, rawLoop, ih fun l hl => h l (List.mem_cons_of_mem line hl)]
    unfold Passed at hline
    split_ifs with hcomment hneedle
    · rfl
    · tauto
    · rfl

variable {opt opt' value : List Char}

theorem head?_directive (opt value : List Char) : (directive opt value).head? = some 'U' := by
  rw [directive, List.append_assoc, List.append_assoc, List.append_assoc]
  rfl

theorem trimmed_directive (opt value : List Char) :
    trimmed (directive opt value) = directive opt value := by
  refine trimmed_eq_self (fun c hc => ?_) fun c hc => ?_
  · rw [head?_directive] at hc
    cases hc
    decide
  · rw [directive, List.getLast?_append_of_ne_nil _ (by simp)] at hc
    cases hc
    decide

theorem quoted_append (hvalue : '"' ∉ value) :
    quoted ([' ', '"'] ++ value ++ ['"', ';']) = some value := by
  have hfirst : Words.splitOnce (· = '"') ([' ', '"'] ++ value ++ ['"', ';']) =
      some ([' '], value ++ '"' :: [';']) :=
    Words.splitOnce_append_cons (List.forall_mem_singleton.2 rfl) rfl _
  have hsecond : Words.splitOnce (· = '"') (value ++ '"' :: [';']) = some (value, [';']) := by
    refine Words.splitOnce_append_cons (fun b hb => decide_eq_false ?_) rfl _
    rintro rfl
    exact hvalue hb
  rw [quoted, hfirst, Option.bind_some, hsecond]
  rfl

/-- A directive is read back. -/
theorem rawLoop_directive (hvalue : '"' ∉ value) (rest : List (List Char)) :
    rawLoop (upgradePrefix ++ opt) (directive opt value :: rest) = some value := by
  have hdirective : directive opt value =
      (upgradePrefix ++ opt) ++ ([' ', '"'] ++ value ++ ['"', ';']) := by
    simp only [directive, List.append_assoc]
  have hcomment : ¬ ("//".toList <+: directive opt value ∨
      (directive opt value).head? = some '#') := by
    rw [head?_directive]
    rintro (⟨tail, htail⟩ | hhead)
    · have hhead : some '/' = some 'U' := by
        rw [← head?_directive opt value, ← htail]
        rfl
      exact absurd hhead (by decide)
    · cases hhead
  rw [rawLoop, trimmed_directive, if_neg hcomment, if_pos (hdirective ▸ List.prefix_append _ _),
    hdirective, List.drop_left, quoted_append hvalue]

/-! ## The file of the options -/

theorem newline_notMem_directive (hopt : '\n' ∉ opt) (hvalue : '\n' ∉ value) :
    '\n' ∉ directive opt value := by
  have hprefix : '\n' ∉ upgradePrefix := by decide
  simp [directive, hprefix, hopt, hvalue]

theorem newline_notMem_originLines (scope : List Char) :
    ∀ line ∈ originLines scope, '\n' ∉ line := by
  unfold originLines
  split_ifs <;> decide

theorem notMem_of_isValidHhmm {time : List Char} {c : Char} (h : isValidHhmm time = true)
    (hc : c ≠ ':') (hdigit : c.isDigit = false) : c ∉ time := by
  unfold isValidHhmm at h
  split at h
  · simp at h
    rintro hmem
    simp at hmem
    rcases hmem with rfl | rfl | rfl | rfl | rfl <;> simp_all
  · cases h

theorem passed_originLines (scope : List Char) :
    ∀ opt ∈ ["Automatic-Reboot".toList, "Automatic-Reboot-Time".toList,
      "Remove-Unused-Dependencies".toList], ∀ line ∈ originLines scope,
        Passed (upgradePrefix ++ opt) line := by
  unfold originLines
  split_ifs <;> decide +kernel

section

variable {scope time : List Char} {reboot unused : Bool}

theorem linesOf_buildAptTenodera (htime : isValidHhmm time = true) :
    linesOf (buildAptTenodera scope reboot time unused) =
      (originLines scope ++ [directive "Automatic-Reboot".toList (boolText reboot),
        directive "Automatic-Reboot-Time".toList time,
        directive "Remove-Unused-Dependencies".toList (boolText unused)]).map stripCr := by
  refine linesOf_unlines fun line hline => ?_
  rcases List.mem_append.1 hline with horigin | hoption
  · exact newline_notMem_originLines scope line horigin
  · have hbool (b : Bool) : '\n' ∉ boolText b := by cases b <;> decide
    have hnewline : '\n' ∉ time := notMem_of_isValidHhmm htime (by decide) (by decide)
    simp only [List.mem_cons, List.not_mem_nil, or_false] at hoption
    rcases hoption with rfl | rfl | rfl
    · exact newline_notMem_directive (by decide) (hbool reboot)
    · exact newline_notMem_directive (by decide) hnewline
    · exact newline_notMem_directive (by decide) (hbool unused)

theorem quote_notMem_boolText (b : Bool) : '"' ∉ boolText b := by
  cases b <;> decide

theorem aptUuRaw_reboot (htime : isValidHhmm time = true) :
    aptUuRaw (buildAptTenodera scope reboot time unused) "Automatic-Reboot".toList =
      some (boolText reboot) := by
  rw [aptUuRaw, linesOf_buildAptTenodera htime, rawLoop_map_stripCr,
    rawLoop_append (passed_originLines scope _ (by simp)),
    rawLoop_directive (quote_notMem_boolText reboot)]

theorem aptUuRaw_rebootTime (htime : isValidHhmm time = true) :
    aptUuRaw (buildAptTenodera scope reboot time unused) "Automatic-Reboot-Time".toList =
      some time := by
  have hreboot : ∀ line ∈ [directive "Automatic-Reboot".toList (boolText reboot)],
      Passed (upgradePrefix ++ "Automatic-Reboot-Time".toList) line := by
    cases reboot <;> decide +kernel
  rw [aptUuRaw, linesOf_buildAptTenodera htime, rawLoop_map_stripCr,
    rawLoop_append (passed_originLines scope _ (by simp)),
    ← List.singleton_append, rawLoop_append hreboot,
    rawLoop_directive (notMem_of_isValidHhmm htime (by decide) (by decide))]

theorem aptUuRaw_removeUnused (htime : isValidHhmm time = true) :
    aptUuRaw (buildAptTenodera scope reboot time unused) "Remove-Unused-Dependencies".toList =
      some (boolText unused) := by
  have hother (opt value : List Char) (hopt : opt.head? = some 'A') :
      Passed (upgradePrefix ++ "Remove-Unused-Dependencies".toList) (directive opt value) := by
    refine .inr (.inr fun hprefix => ?_)
    rw [trimmed_directive, directive, List.append_assoc, List.append_assoc, List.append_assoc,
      List.prefix_append_right_inj] at hprefix
    obtain ⟨opt, rfl⟩ := List.head?_eq_some_iff.1 hopt
    exact absurd (List.cons_prefix_cons.1 hprefix).1 (by decide)
  have hlines : ∀ line ∈ [directive "Automatic-Reboot".toList (boolText reboot),
      directive "Automatic-Reboot-Time".toList time],
      Passed (upgradePrefix ++ "Remove-Unused-Dependencies".toList) line := by
    intro line hline
    simp only [List.mem_cons, List.not_mem_nil, or_false] at hline
    rcases hline with rfl | rfl
    · exact hother _ _ rfl
    · exact hother _ _ rfl
  rw [aptUuRaw, linesOf_buildAptTenodera htime, rawLoop_map_stripCr,
    rawLoop_append (passed_originLines scope _ (by simp))]
  show rawLoop _ ([directive _ _, directive _ _] ++ [directive _ _]) = _
  rw [rawLoop_append hlines, rawLoop_directive (quote_notMem_boolText unused)]

theorem aptUuBool_of_boolText {conf opt : List Char} {b : Bool}
    (h : aptUuRaw conf opt = some (boolText b)) : aptUuBool conf opt = some b := by
  rw [aptUuBool, h]
  cases b <;> rfl

/-- Only the origins of all updates have the text that the scope is read from. -/
theorem infix_unlines_iff {pat : List Char} {lines : List (List Char)} (hnewline : '\n' ∉ pat)
    (hne : pat ≠ []) : pat <:+: unlines lines ↔ ∃ line ∈ lines, pat <:+: line := by
  induction lines with
  | nil =>
    have hnil : unlines [] = [] := rfl
    simp [hnil, hne]
  | cons line lines ih =>
    rw [unlines_cons, Text.infix_append_cons_iff hnewline hne, ih, List.exists_mem_cons_iff]

theorem infix_directive_iff {pat : List Char} (hspace : ' ' ∉ pat) (hquote : '"' ∉ pat)
    (hne : pat ≠ []) : pat <:+: directive opt value ↔
      pat <:+: upgradePrefix ++ opt ∨ pat <:+: value ∨ pat <:+: [';'] := by
  have hdirective : directive opt value =
      (upgradePrefix ++ opt) ++ ' ' :: ([] ++ '"' :: (value ++ '"' :: [';'])) := by
    simp [directive]
  have hnil : ¬ pat <:+: [] := fun h => hne (List.infix_nil.1 h)
  rw [hdirective, Text.infix_append_cons_iff hspace hne, Text.infix_append_cons_iff hquote hne,
    Text.infix_append_cons_iff hquote hne, or_iff_right hnil]

theorem length_of_isValidHhmm (h : isValidHhmm time = true) : time.length = 5 := by
  unfold isValidHhmm at h
  split at h
  · rfl
  · cases h

theorem updates_infix_iff (htime : isValidHhmm time = true) :
    "-updates".toList <:+: buildAptTenodera scope reboot time unused ↔ scope = "all".toList := by
  have hbool (b : Bool) : ¬ "-updates".toList <:+: boolText b := by cases b <;> decide
  have hshort : ¬ "-updates".toList <:+: time := by
    intro hinfix
    have hle := hinfix.length_le
    rw [length_of_isValidHhmm htime] at hle
    exact absurd hle (by decide)
  have hoption (opt value : List Char) (hopt : ¬ "-updates".toList <:+: upgradePrefix ++ opt)
      (hvalue : ¬ "-updates".toList <:+: value) :
      ¬ "-updates".toList <:+: directive opt value := by
    rw [infix_directive_iff (by decide) (by decide) (by decide)]
    rintro (h | h | h)
    · exact hopt h
    · exact hvalue h
    · exact absurd h (by decide)
  have horigins : (∃ line ∈ originLines scope, "-updates".toList <:+: line) ↔
      scope = "all".toList := by
    unfold originLines
    split_ifs with hall
    · exact iff_of_true (by decide +kernel) hall
    · exact iff_of_false (by decide +kernel) hall
  rw [buildAptTenodera, infix_unlines_iff (by decide) (by decide), ← horigins]
  constructor
  · rintro ⟨line, hline, hinfix⟩
    rcases List.mem_append.1 hline with hline | hline
    · exact ⟨line, hline, hinfix⟩
    · simp only [List.mem_cons, List.not_mem_nil, or_false] at hline
      rcases hline with rfl | rfl | rfl
      · exact absurd hinfix (hoption _ _ (by decide +kernel) (hbool reboot))
      · exact absurd hinfix (hoption _ _ (by decide +kernel) hshort)
      · exact absurd hinfix (hoption _ _ (by decide +kernel) (hbool unused))
  · rintro ⟨line, hline, hinfix⟩
    exact ⟨line, List.mem_append_left _ hline, hinfix⟩

end

/-! ## The file of the periods -/

theorem aptPeriodicValue_buildAptPeriodic (enabled : Bool) (mode : List Char) :
    (aptPeriodicValue (buildAptPeriodic enabled mode) "Unattended-Upgrade".toList = some ['1'] ↔
      enabled = true ∧ mode = "install".toList) ∧
    (aptPeriodicValue (buildAptPeriodic enabled mode) "Download-Upgradeable-Packages".toList =
      some ['1'] ↔ enabled = true) := by
  unfold buildAptPeriodic
  cases enabled with
  | false =>
    simp only [Bool.false_eq_true, false_and, if_false, iff_false]
    decide +kernel
  | true =>
    by_cases hmode : mode = "install".toList
    · simp only [hmode, and_self, if_true, iff_true]
      decide +kernel
    · simp only [hmode, and_false, if_true, if_false, iff_true, iff_false]
      decide +kernel

/-! ## A request to apt -/

variable {h h' : AptHost sys} {o : Attempt} {data : Value}

/-- What is shown when the two files were written for some settings. -/
theorem aptStatus_of_built {s : Settings} (hmode : s.mode ∈ modes) (hscope : s.scope ∈ scopes)
    (htime : isValidHhmm s.rebootTime = true)
    (hperiodic : h.periodic = buildAptPeriodic s.enabled s.mode)
    (hmanaged : h.managed = buildAptTenodera s.scope s.reboot s.rebootTime s.removeUnused) :
    aptStatus h =
      { s with
        enabled := h.installed && s.enabled
        mode := if s.enabled then s.mode else "download".toList
        schedule := h.calendar.1 } := by
  obtain ⟨hunattended, hdownload⟩ := aptPeriodicValue_buildAptPeriodic s.enabled s.mode
  have hmode : s.mode = "install".toList ∨ s.mode = "download".toList := by
    simpa only [modes, List.mem_cons, List.not_mem_nil, or_false] using hmode
  have hscope : s.scope = "all".toList ∨ s.scope = "security".toList := by
    simpa only [scopes, List.mem_cons, List.not_mem_nil, or_false] using hscope
  unfold aptStatus
  rw [hperiodic, hmanaged, aptUuBool_of_boolText (aptUuRaw_reboot htime),
    aptUuRaw_rebootTime htime, aptUuBool_of_boolText (aptUuRaw_removeUnused htime),
    parseOncalendar_timersCalendar]
  ext1
  · simp only [hunattended, hdownload]
    cases s.enabled <;> simp
  · dsimp only
    rw [if_congr hunattended rfl rfl]
    rcases hmode with hmode | hmode <;> cases s.enabled <;> simp [hmode]
  · dsimp only
    rw [if_congr (updates_infix_iff htime) rfl rfl]
    rcases hscope with hscope | hscope <;> simp [hscope]
  all_goals rfl

/-- A request that is answered without an error changes what is shown as it says. -/
theorem aptStatus_aptSet (hset : aptSet o data h = .ok h') :
    aptStatus h' = (aptStatus h).afterApt sys data := by
  have hschedule : (aptStatus h).schedule = h.calendar.1 :=
    parseOncalendar_timersCalendar h.calendar h.next
  unfold aptSet at hset
  generalize aptStatus h = cur at hset hschedule ⊢
  dsimp only at hset
  split_ifs at hset with hmode hscope htime hinstall hwrite
  cases hcalendar : reschedule sys o (cur.merge data).schedule h.calendar with
  | error e => rw [hcalendar] at hset; cases hset
  | ok calendar =>
    rw [hcalendar] at hset
    cases hset
    have hinstalled : ((h.installed || (cur.merge data).enabled) && (cur.merge data).enabled) =
        (cur.merge data).enabled := by
      cases (cur.merge data).enabled <;> simp
    have hshown : calendar.1 = cur.shownSchedule sys data := by
      rw [← schedule_of_reschedule h.next hschedule hcalendar,
        parseOncalendar_timersCalendar]
    rw [aptStatus_of_built hmode hscope htime rfl rfl]
    dsimp only
    rw [hinstalled, hshown, Settings.afterApt]

/-! ## A request to dnf -/

/-- The entries that are ever written. -/
def writtenEntries : List IniConfig.Entry :=
  [("download_updates".toList, "yes".toList), ("apply_updates".toList, "yes".toList),
    ("apply_updates".toList, "no".toList), ("upgrade_type".toList, "security".toList),
    ("upgrade_type".toList, "default".toList), ("reboot".toList, "when-needed".toList),
    ("reboot".toList, "never".toList)]

theorem isEntry_of_mem : ∀ e ∈ writtenEntries, IniConfig.IsEntry e := by
  have hchecked : ∀ e ∈ writtenEntries, trimmed e.1 = e.1 ∧ e.1 ≠ [] ∧ '=' ∉ e.1 ∧ '\n' ∉ e.1 ∧
      e.1.head? ≠ some '[' ∧ trimmed e.2 = e.2 ∧ '\n' ∉ e.2 := by
    decide +kernel
  intro e he
  obtain ⟨h₁, h₂, h₃, h₄, h₅, h₆, h₇⟩ := hchecked e he
  exact ⟨h₁, h₂, h₃, h₄, h₅, h₆, h₇⟩

theorem isUpdate_dnfEntries (s : Settings) : IniConfig.IsUpdate (dnfEntries s) := by
  have hwritten : ∀ e ∈ dnfEntries s, e ∈ writtenEntries := by
    unfold dnfEntries
    split_ifs <;> decide +kernel
  have hkeys : (dnfEntries s).map Prod.fst = ["download_updates".toList, "apply_updates".toList,
      "upgrade_type".toList, "reboot".toList] := rfl
  refine ⟨fun e he => isEntry_of_mem e (hwritten e he), ?_⟩
  rw [hkeys]
  decide +kernel

/-- An entry that was written is read back. -/
theorem iniGet_iniSet_of_mem (content : List Char) {s : Settings} {e : IniConfig.Entry}
    (he : e ∈ dnfEntries s) :
    iniGet (iniSet content "commands".toList (dnfEntries s)) "commands".toList e.1 = some e.2 := by
  have hkv := isUpdate_dnfEntries s
  rw [IniConfig.iniGet_iniSet hkv (by decide)]
  exact IniConfig.getLoop_setLoop_of_mem hkv he (List.not_mem_nil) (.inr rfl)

/-- What is shown when the configuration was written for some settings. -/
theorem dnfStatus_of_written {h : DnfHost sys} {content : List Char} {s : Settings}
    (hmode : s.mode ∈ modes) (hscope : s.scope ∈ scopes)
    (hconf : h.conf = some (iniSet content "commands".toList (dnfEntries s))) :
    dnfStatus h =
      { s with
        enabled := h.timerOn
        schedule := h.calendar.1
        rebootTime := []
        removeUnused := false } := by
  have hmode : s.mode = "install".toList ∨ s.mode = "download".toList := by
    simpa only [modes, List.mem_cons, List.not_mem_nil, or_false] using hmode
  have hscope : s.scope = "all".toList ∨ s.scope = "security".toList := by
    simpa only [scopes, List.mem_cons, List.not_mem_nil, or_false] using hscope
  have happly := iniGet_iniSet_of_mem content (s := s)
    (e := ("apply_updates".toList, _)) (.tail _ (.head _))
  have htype := iniGet_iniSet_of_mem content (s := s)
    (e := ("upgrade_type".toList, _)) (.tail _ (.tail _ (.head _)))
  have hreboot := iniGet_iniSet_of_mem content (s := s)
    (e := ("reboot".toList, _)) (.tail _ (.tail _ (.tail _ (.head _))))
  unfold dnfStatus
  dsimp only at happly htype hreboot ⊢
  rw [hconf, Option.getD_some, happly, htype, hreboot, parseOncalendar_timersCalendar]
  simp only [Option.getD_some]
  ext1
  · rfl
  · dsimp only
    rcases hmode with hmode | hmode <;> rw [hmode] <;> decide +kernel
  · dsimp only
    rcases hscope with hscope | hscope <;> rw [hscope] <;> decide +kernel
  · rfl
  · dsimp only
    cases s.reboot <;> decide +kernel
  · rfl
  · rfl

/-- A request that is answered without an error changes what is shown as it says. -/
theorem dnfStatus_dnfSet {packaged : Option (List Char)} {h h' : DnfHost sys}
    (hset : dnfSet packaged o data h = .ok h') :
    dnfStatus h' = (dnfStatus h).afterDnf sys data := by
  have hschedule : (dnfStatus h).schedule = h.calendar.1 :=
    parseOncalendar_timersCalendar h.calendar h.next
  unfold dnfSet at hset
  dsimp only at hset
  generalize Option.getD (if ¬ h.found = true ∧ h.conf = none then packaged else h.conf) [] =
    current at hset
  by_cases hmode : ((dnfStatus h).merge data).mode ∉ modes
  · rw [if_pos hmode] at hset
    cases hset
  by_cases hscope : ((dnfStatus h).merge data).scope ∉ scopes
  · rw [if_neg hmode, if_pos hscope] at hset
    cases hset
  rw [if_neg hmode, if_neg hscope] at hset
  cases henabled : ((dnfStatus h).merge data).enabled with
  | false =>
    rw [henabled, if_pos (by decide)] at hset
    split_ifs at hset
    cases hset
    rw [Settings.afterDnf, henabled, if_neg (by decide)]
    rfl
  | true =>
    rw [henabled, if_neg (by decide)] at hset
    split_ifs at hset with hinstall hwrite hswitch
    · cases hcalendar : reschedule sys o ((dnfStatus h).merge data).schedule h.calendar with
      | error e => rw [hcalendar] at hset; cases hset
      | ok calendar =>
        rw [hcalendar] at hset
        cases hset
        have hshown : calendar.1 = (dnfStatus h).shownSchedule sys data := by
          rw [← schedule_of_reschedule h.next hschedule hcalendar,
            parseOncalendar_timersCalendar]
        rw [dnfStatus_of_written (not_not.1 hmode) (not_not.1 hscope) rfl, Settings.afterDnf,
          henabled, if_pos rfl, ← hshown]
        exact Settings.ext henabled.symm rfl rfl rfl rfl rfl rfl
    · cases hcalendar : reschedule sys o ((dnfStatus h).merge data).schedule h.calendar with
      | error e => rw [hcalendar] at hset; cases hset
      | ok calendar => rw [hcalendar] at hset; cases hset

end

/-! ## A host -/

/-- What `systemd` makes of a time of the day. -/
def nightlyNormal (spec : List Char) : List Char :=
  if spec = "*-*-* 04:00".toList ∨ spec = "*-*-* 04:00:00".toList then "*-*-* 04:00:00".toList
  else []

theorem nightlyNormal_cases (spec : List Char) :
    nightlyNormal spec = "*-*-* 04:00:00".toList ∨ nightlyNormal spec = [] := by
  unfold nightlyNormal
  split_ifs
  · exact .inl rfl
  · exact .inr rfl

def nightly : Systemd where
  normal := nightlyNormal
  normal_normal spec := by
    rcases nightlyNormal_cases spec with h | h <;> rw [h] <;> decide +kernel
  trimmed_normal spec := by
    rcases nightlyNormal_cases spec with h | h <;> rw [h] <;> decide +kernel
  semicolon spec := by
    rcases nightlyNormal_cases spec with h | h <;> rw [h] <;> decide +kernel

/-- Requests, each with what became of its commands. -/
abbrev Requests : Type := List (Attempt × Value)

def succeeds : Attempt := ⟨true, true, true, true, true, true⟩

/-- All updates are switched on, a reboot is asked for, and the updates are switched off. -/
def threeRequests : Requests :=
  [(succeeds, .object [("enabled", .bool true), ("mode", .string "install"),
      ("scope", .string "all"), ("schedule", .string "*-*-* 04:00")]),
    (succeeds, .object [("reboot", .bool true), ("reboot_time", .string "03:30")]),
    (succeeds, .object [("enabled", .bool false)])]

def freshApt : AptHost nightly := ⟨false, [], [], ⟨[], rfl⟩, []⟩

def freshDnf : DnfHost nightly := ⟨false, none, ⟨[], rfl⟩, [], false⟩

/-! ## Runs -/

variable {sys : Systemd} {requests : Requests}

/-- The host after requests that are all answered without an error. -/
def runApt (h : AptHost sys) (requests : Requests) : Option (AptHost sys) :=
  run (fun h r => (aptSet r.1 r.2 h).toOption) h requests

def runDnf (packaged : Option (List Char)) (h : DnfHost sys) (requests : Requests) :
    Option (DnfHost sys) :=
  run (fun h r => (dnfSet packaged r.1 r.2 h).toOption) h requests

theorem eq_ok_of_toOption {ε α : Type} {x : Except ε α} {a : α} (h : x.toOption = some a) :
    x = .ok a := by
  cases x with
  | error e => cases h
  | ok b => exact congrArg Except.ok (Option.some.inj h)

end Tenodera.Agent.AutoUpdates

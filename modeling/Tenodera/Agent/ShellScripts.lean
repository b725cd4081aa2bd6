import Tenodera.Agent.FileOps
import Tenodera.Lib.Shell
import Tenodera.Lib.Utf8

/-!
# The scripts for a shell

`sudo_stdin_write_as_user` and `write_as_user` hand a script to `sh -c`.  Its reading by the shell
is a pipeline of three commands, whatever the content and the arguments: `script_runs_exactly`.
-/

namespace Tenodera.Agent.Host

open Protocol Effect

/-! ## What a script runs -/

/-- What the commands in front of the pipelines write; `printf` writes a format without conversions
and escapes as it stands. -/
def filterOutput : List String → List UInt8 → Option (List UInt8)
  | ["printf", format], _ =>
    if '%' ∈ format.toList ∨ '\\' ∈ format.toList ∨ Text.startsWith format "-" then none
    else some (Utf8.bytes format.toList)
  | ["base64", "-d"], input => Base64.decode (input.map fun b => Char.ofNat b.toNat)
  | _, _ => none

/-- The last process of the pipeline that a script is. -/
def scriptProcess (script : String) (input : List UInt8) : Option Shell.Process :=
  (Shell.pipeline script.toList).bind (Shell.lastProcess filterOutput input)

section

variable {user password program path command content : String} {args : List String}

/-! ## The commands that are asked for -/

variable {R : ∀ o, Reply o → Prop} {c : Command}

theorem asksIf_run_iff {runAs stdin : Option String} {argv : List String} :
    (run runAs argv stdin).AsksIf R (.run c) ↔
      argv.any Text.hasNul = false ∧ c = ⟨runAs, argv, stdin⟩ := by
  unfold run
  split_ifs with h
  · simp [h]
  · rw [perform, Prog.asksIf_perform, Op.run.injEq, Bool.eq_false_iff.2 h, eq_self_iff_true,
      true_and]

/-- A command whose output only goes into the result. -/
theorem asksIf_run_bind_iff {runAs stdin : Option String} {argv : List String}
    {f : Except String Output → HostM Value} (hf : ∀ r, (f r).Only (· ≠ .run c)) :
    (run runAs argv stdin >>= f).AsksIf R (.run c) ↔
      argv.any Text.hasNul = false ∧ c = ⟨runAs, argv, stdin⟩ := by
  rw [Prog.asksIf_bind, asksIf_run_iff, or_iff_left]
  rintro ⟨r, -, h⟩
  exact hf r _ h.asks rfl

/-- A command through `sudo`, on a host that may know the user. -/
theorem asksIf_sudoAsUser_iff (hR : ∀ r, R (.lookupUser user) r) :
    (sudoAsUser user password args).AsksIf R (.run c) ↔
      (Text.hasNul user = false ∧ args.any Text.hasNul = false) ∧
        c = ⟨some user, "sudo" :: "-S" :: "-k" :: args, some (password ++ "\n")⟩ := by
  have hlookup : ¬ (lookupUser user).AsksIf R (.run c) := by
    unfold lookupUser
    split_ifs <;> simp [perform]
  unfold sudoAsUser
  rw [Prog.asksIf_bind, or_iff_right hlookup]
  constructor
  · rintro ⟨_ | pwd, hr, h⟩
    · cases h
    · have hu : ¬ Text.hasNul user := fun hnul => by
        cases returns_lookupUser_iff.1 hr.returns hnul
      rw [asksIf_run_bind_iff] at h
      · exact ⟨⟨Bool.eq_false_iff.2 hu, h.1⟩, h.2⟩
      · rintro (_ | out)
        · exact Prog.only_pure _
        · exact Prog.Only.ite (fun _ => Prog.only_pure _) fun _ => Prog.only_pure _
  · rintro ⟨⟨hu, hargs⟩, rfl⟩
    have hknown : (lookupUser user).ReturnsIf R (some ⟨0, 0, "", ""⟩) := by
      rw [lookupUser, if_neg (by simp [hu])]
      exact (Prog.returnsIf_perform _ _).2 (hR _)
    refine ⟨_, hknown, (Prog.asksIf_bind _ _ _).2 (.inl ?_)⟩
    exact asksIf_run_iff.2 ⟨hargs, rfl⟩

theorem exists_asksIf_sudoAsUser (hR : ∀ r, R (.lookupUser user) r)
    (hu : Text.hasNul user = false) (hargs : args.any Text.hasNul = false) :
    ∃ c, (sudoAsUser user password args).AsksIf R (.run c) :=
  ⟨_, (asksIf_sudoAsUser_iff hR).2 ⟨⟨hu, hargs⟩, rfl⟩⟩

theorem asks_sudoAsUser_iff : (sudoAsUser user password args).Asks (.run c) ↔
    (Text.hasNul user = false ∧ args.any Text.hasNul = false) ∧
      c = ⟨some user, "sudo" :: "-S" :: "-k" :: args, some (password ++ "\n")⟩ := by
  rw [← Prog.asksIf_true_iff]
  exact asksIf_sudoAsUser_iff fun _ => trivial

theorem asksIf_sudoDirect_iff {argv : List String} :
    (sudoDirect user argv).AsksIf R (.run c) ↔
      (Text.hasNul user = false ∧ argv.any Text.hasNul = false) ∧
        c = ⟨none, "sudo" :: "-n" :: "-u" :: user :: "--" :: argv, none⟩ := by
  unfold sudoDirect
  rw [asksIf_run_bind_iff]
  · have hnul : ("sudo" :: "-n" :: "-u" :: user :: "--" :: argv).any Text.hasNul =
        (Text.hasNul user || argv.any Text.hasNul) := rfl
    rw [hnul, Bool.or_eq_false_iff]
  · rintro (_ | out)
    · exact Prog.only_pure _
    · exact Prog.Only.ite (fun _ => Prog.only_pure _) fun _ => Prog.only_pure _

theorem asks_sudoStdinWriteAsUser_iff :
    (sudoStdinWriteAsUser user password args content).Asks (.run c) ↔
      (Text.hasNul user = false ∧
        Text.hasNul (" ".intercalate (args.map shellEscape)) = false) ∧
      c = ⟨some user, ["sudo", "-S", "-k", "sh", "-c",
        decodeInto (" ".intercalate (args.map shellEscape)) content],
        some (password ++ "\n")⟩ := by
  unfold sudoStdinWriteAsUser
  rw [Prog.asks_bind, asks_sudoAsUser_iff, any_hasNul_script, hasNul_decodeInto, or_iff_left]
  rintro ⟨res, -, h⟩
  exact h

theorem not_asks_canonicalize : ¬ (canonicalize path).Asks (.run c) := by
  unfold canonicalize
  split_ifs
  · exact id
  · simp [perform]

theorem not_asks_resolveTarget : ¬ (resolveTarget path).Asks (.run c) := by
  unfold resolveTarget
  split
  · exact id
  · rw [Prog.asks_bind]
    rintro (h | ⟨r, -, h⟩)
    · exact not_asks_canonicalize h
    · cases r <;> exact h

/-- With these replies, the path passes the check of `write_as_user` and `mkdir_as_user`. -/
def PassesAsHome (R : ∀ o, Reply o → Prop) (path user : String) : Prop :=
  ∃ target, (resolveTarget path).ReturnsIf R target ∧ Path.startsWith target (home user)

theorem asksIf_inHomeOf_iff {u : Text.Alphanumeric} {act : HostM Value} :
    (inHomeOf u path user act).AsksIf R (.run c) ↔
      isValidUsername u user ∧ PassesAsHome R path user ∧ act.AsksIf R (.run c) := by
  unfold inHomeOf
  by_cases hu : isValidUsername u user
  · have hresolve : ¬ (resolveTarget path).AsksIf R (.run c) := fun h =>
      not_asks_resolveTarget h.asks
    rw [if_neg (not_not.2 hu), Prog.asksIf_bind, or_iff_right hresolve]
    simp only [hu, true_and, PassesAsHome]
    constructor
    · rintro ⟨target, htarget, h⟩
      split_ifs at h with hhome
      · exact ⟨⟨target, htarget, hhome⟩, h⟩
      · cases h
    · rintro ⟨⟨target, htarget, hhome⟩, h⟩
      refine ⟨target, htarget, ?_⟩
      rwa [if_neg (not_not.2 hhome)]
  · simp [hu]

theorem asksIf_writeAsUser_iff {u : Text.Alphanumeric} :
    (writeAsUser u path content user).AsksIf R (.run c) ↔
    (isValidUsername u user ∧ PassesAsHome R path user ∧ Text.hasNul path = false) ∧
      c = ⟨none, ["sudo", "-n", "-u", user, "--", "sh", "-c",
        decodeInto ("tee -- " ++ shellEscape path) content], none⟩ := by
  have hnul : Text.hasNul ("tee -- " ++ shellEscape path) = Text.hasNul path := by
    rw [Text.hasNul_append, hasNul_shellEscape]
    rfl
  rw [writeAsUser, asksIf_inHomeOf_iff, asksIf_sudoDirect_iff, any_hasNul_script, hasNul_decodeInto,
    hnul]
  constructor
  · rintro ⟨hu, hhome, ⟨-, hpath⟩, hc⟩
    exact ⟨⟨hu, hhome, hpath⟩, hc⟩
  · rintro ⟨⟨hu, hhome, hpath⟩, hc⟩
    exact ⟨hu, hhome, ⟨hasNul_of_isValidUsername hu, hpath⟩, hc⟩

/-! ## Arguments -/

theorem toList_shellEscape (s : String) : (shellEscape s).toList = Shell.quote s.toList := by
  have hchar : (fun c => if c = '\'' then "'\\''".toList else [c]) = Shell.quoteChar := rfl
  rw [shellEscape, hchar, String.toList_append, String.toList_append]
  simp only [String.toList_ofList]
  rfl

theorem toList_intercalate_shellEscape (program : String) (args : List String) :
    (" ".intercalate ((program :: args).map shellEscape)).toList =
      Shell.quote program.toList ++
        (args.map String.toList).flatMap fun a => ' ' :: Shell.quote a := by
  induction args generalizing program with
  | nil => rw [List.map_cons, List.map_nil, String.intercalate_singleton, toList_shellEscape]; simp
  | cons a args ih =>
    rw [List.map_cons, List.map_cons, String.intercalate_cons_cons, ← List.map_cons,
      String.toList_append, String.toList_append, ih, toList_shellEscape]
    simp

theorem hasNul_intercalate_shellEscape (program : String) (args : List String) :
    Text.hasNul (" ".intercalate ((program :: args).map shellEscape)) =
      (program :: args).any Text.hasNul := by
  induction args generalizing program with
  | nil =>
    rw [List.map_cons, List.map_nil, String.intercalate_singleton, hasNul_shellEscape]
    exact (Bool.or_false _).symm
  | cons a args ih =>
    rw [List.map_cons, List.map_cons, String.intercalate_cons_cons, ← List.map_cons,
      Text.hasNul_append, Text.hasNul_append, ih, hasNul_shellEscape, List.any_cons]
    rw [show Text.hasNul " " = false by decide, Bool.or_false]
    rfl

theorem pipeline_shellEscape (program : String) (args : List String) :
    Shell.pipeline (" ".intercalate ((program :: args).map shellEscape)).toList =
      some [program :: args] := by
  have hargs : (program :: args).map String.toList =
      program.toList :: args.map String.toList := rfl
  have htexts : ((program :: args).map String.toList).map String.ofList = program :: args := by
    simp
  have htokens : Shell.tokens (" ".intercalate ((program :: args).map shellEscape)).toList =
      some ((((program :: args).map String.toList).map fun a => a.map Shell.Piece.quoted).map
        Shell.Token.word) := by
    rw [toList_intercalate_shellEscape, Shell.tokens, Shell.readFrom_append, Shell.scan_start_quote,
      Shell.readFrom_quotes, hargs]
    simp
  rw [Shell.pipeline, htokens, Option.bind_some, Shell.commands_words, List.nil_append, hargs,
    Shell.command_quoted, ← hargs, htexts]
  rfl

theorem pipeline_tee (path : String) :
    Shell.pipeline ("tee -- " ++ shellEscape path).toList = some [["tee", "--", path]] := by
  have hstart : Shell.scan ⟨.start, false⟩ "tee -- ".toList =
      ([.word ("tee".toList.map .bare), .word ("--".toList.map .bare)], ⟨.start, false⟩) := by
    decide
  have htokens : Shell.tokens ("tee -- " ++ shellEscape path).toList =
      some (["tee".toList.map .bare, "--".toList.map .bare, path.toList.map .quoted].map
        Shell.Token.word) := by
    rw [String.toList_append, toList_shellEscape, Shell.tokens, Shell.readFrom_append, hstart]
    exact congrArg (Option.map _) (Shell.tokens_quote path.toList)
  have htee : Shell.literal ("tee".toList.map .bare) = some "tee" := by decide
  have hdashes : Shell.literal ("--".toList.map .bare) = some "--" := by decide
  rw [Shell.pipeline, htokens, Option.bind_some, Shell.commands_words, List.nil_append]
  simp only [Shell.command, List.mapM_cons, List.mapM_nil, htee, hdashes, Shell.literal_quoted,
    String.ofList_toList]
  rfl

/-! ## The content -/

theorem ascii_encodeBytes (bytes : List UInt8) : Utf8.Ascii (Base64.encodeBytes bytes) := by
  intro c hc
  have hcode := Base64.isCode_of_mem_encodeBytes bytes c hc
  have htable : ('=' :: Base64.alphabet).all fun c => c.utf8Size = 1 := by decide
  refine of_decide_eq_true (List.all_eq_true.1 htable c ?_)
  rw [Base64.isCode, Bool.or_eq_true, decide_eq_true_eq, decide_eq_true_eq] at hcode
  exact List.mem_cons.2 hcode.symm

theorem map_ofNat_bytes {cs : List Char} (h : Utf8.Ascii cs) :
    (Utf8.bytes cs).map (fun b => Char.ofNat b.toNat) = cs := by
  rw [Utf8.bytes_eq_map h, List.map_map]
  refine (List.map_congr_left fun c hc => ?_).trans (List.map_id cs)
  have hlow : c.toNat < 128 := by
    have hsize := Char.utf8Size_eq_one_iff.1 (h c hc)
    change c.val.toNat < 128
    exact Nat.lt_succ_of_le (UInt32.le_iff_toNat_le.1 hsize)
  have hbyte : c.val.toUInt8.toNat = c.toNat := by
    rw [UInt32.toNat_toUInt8]
    exact Nat.mod_eq_of_lt (hlow.trans (by decide))
  change Char.ofNat c.val.toUInt8.toNat = c
  rw [hbyte, Char.ofNat_toNat]

/-- The format of the `printf` of a script. -/
theorem filterOutput_printf (content : String) (input : List UInt8) :
    filterOutput ["printf", Base64.encode content] input =
      some (Utf8.bytes (Base64.encode content).toList) := by
  have hcode := Base64.isCode_of_mem_encodeBytes (Utf8.bytes content.toList)
  have htext : (Base64.encode content).toList = Base64.encodeBytes (Utf8.bytes content.toList) :=
    String.toList_ofList
  have hpercent : '%' ∉ (Base64.encode content).toList := fun h =>
    absurd (hcode _ (htext ▸ h)) (by decide)
  have hbackslash : '\\' ∉ (Base64.encode content).toList := fun h =>
    absurd (hcode _ (htext ▸ h)) (by decide)
  have hdash : ¬ Text.startsWith (Base64.encode content) "-" := fun h => by
    obtain ⟨rest, hrest⟩ := List.isPrefixOf_iff_prefix.1 h
    have hmem : '-' ∈ (Base64.encode content).toList := hrest ▸ List.mem_cons_self
    exact absurd (hcode _ (htext ▸ hmem)) (by decide)
  have hplain : ¬ ('%' ∈ (Base64.encode content).toList ∨
      '\\' ∈ (Base64.encode content).toList ∨ Text.startsWith (Base64.encode content) "-") :=
    not_or.2 ⟨hpercent, not_or.2 ⟨hbackslash, hdash⟩⟩
  exact if_neg hplain

theorem filterOutput_base64 (content : String) :
    filterOutput ["base64", "-d"] (Utf8.bytes (Base64.encode content).toList) =
      some (Utf8.bytes content.toList) := by
  change Base64.decode _ = _
  have htext : (Base64.encode content).toList = Base64.encodeBytes (Utf8.bytes content.toList) :=
    String.toList_ofList
  rw [htext, map_ofNat_bytes (ascii_encodeBytes _), Base64.decode_encodeBytes]

/-! ## Scripts -/

/-- The words in front of the command of a script. -/
def decodingTokens (text : List Char) : List Shell.Token :=
  [.word ("printf".toList.map .bare), .word (text.map .quoted), .operator ['|'],
    .word ("base64".toList.map .bare), .word ("-d".toList.map .bare), .operator ['|']]

theorem tokens_decoding {text : List Char} (h : '\'' ∉ text) (rest : List Char) :
    Shell.tokens ("printf '".toList ++ (text ++ ("' | base64 -d | ".toList ++ rest))) =
      (Shell.tokens rest).map (decodingTokens text ++ ·) := by
  have hprintf : Shell.scan ⟨.start, false⟩ "printf '".toList =
      ([.word ("printf".toList.map .bare)], ⟨.word [] .single, false⟩) := by decide
  have hclose (w : Shell.Word) : Shell.scan ⟨.word w .single, false⟩ "' ".toList =
      ([.word w], ⟨.start, false⟩) := rfl
  have hpipes : Shell.scan ⟨.start, false⟩ "| base64 -d | ".toList =
      ([.operator ['|'], .word ("base64".toList.map .bare), .word ("-d".toList.map .bare),
        .operator ['|']], ⟨.start, false⟩) := by decide
  have hsplit : "' | base64 -d | ".toList = "' ".toList ++ "| base64 -d | ".toList := rfl
  rw [Shell.tokens, Shell.readFrom_append, hprintf, Shell.readFrom_append, Shell.scan_single h,
    hsplit, List.append_assoc, Shell.readFrom_append, hclose, Shell.readFrom_append, hpipes]
  simp only [Option.map_map]
  rfl

theorem commands_decoding (text : List Char) (ts : List Shell.Token) :
    Shell.commands [] (decodingTokens text ++ ts) =
      (Shell.commands [] ts).map (["printf", String.ofList text] :: ["base64", "-d"] :: ·) := by
  have hprintf : Shell.command ["printf".toList.map .bare, text.map .quoted] =
      some ["printf", String.ofList text] := by
    have hword : Shell.literal ("printf".toList.map .bare) = some "printf" := by decide
    simp only [Shell.command, List.mapM_cons, List.mapM_nil, hword, Shell.literal_quoted]
    rfl
  have hbase64 : Shell.command ["base64".toList.map .bare, "-d".toList.map .bare] =
      some ["base64", "-d"] := by decide
  simp only [decodingTokens, List.cons_append, List.nil_append, Shell.commands, if_true, hprintf,
    hbase64]
  cases Shell.commands [] ts <;> rfl

/-- The script is the pipeline of its command, with two commands in front. -/
theorem pipeline_decodeInto (command content : String) :
    Shell.pipeline (decodeInto command content).toList =
      (Shell.pipeline command.toList).map
        (["printf", Base64.encode content] :: ["base64", "-d"] :: ·) := by
  have hquote : '\'' ∉ (Base64.encode content).toList := by
    rw [Base64.encode, String.toList_ofList]
    intro h
    exact absurd (Base64.isCode_of_mem_encodeBytes _ _ h) (by decide)
  rw [Shell.pipeline, decodeInto, String.toList_append, String.toList_append, String.toList_append,
    List.append_assoc, List.append_assoc, tokens_decoding hquote, Shell.pipeline]
  cases Shell.tokens command.toList with
  | none => rfl
  | some ts =>
    rw [Option.map_some, Option.bind_some, Option.bind_some, commands_decoding,
      String.ofList_toList]

/-- What a script with one command runs, whatever comes in from outside. -/
theorem scriptProcess_decodeInto {argv : List String}
    (h : Shell.pipeline command.toList = some [argv]) (input : List UInt8) :
    scriptProcess (decodeInto command content) input =
      some ⟨argv, Utf8.bytes content.toList⟩ := by
  rw [scriptProcess, pipeline_decodeInto, h]
  simp only [Option.map_some, Option.bind_some, Shell.lastProcess, filterOutput_printf,
    filterOutput_base64]

/-- The shell reads the script as these three commands, and the last one gets the content. -/
def Executes (script : String) (argv : List String) (content : String) : Prop :=
  Shell.pipeline script.toList =
      some [["printf", Base64.encode content], ["base64", "-d"], argv] ∧
    ∀ input, scriptProcess script input = some ⟨argv, Utf8.bytes content.toList⟩

theorem executes_decodeInto {argv : List String}
    (h : Shell.pipeline command.toList = some [argv]) :
    Executes (decodeInto command content) argv content := by
  refine ⟨?_, scriptProcess_decodeInto h⟩
  rw [pipeline_decodeInto, h]
  rfl

end

/-- Both helpers give the shell one script, which executes exactly the program, with exactly the
arguments and the content as its input; quoting is undone by the shell for every text. -/
theorem script_runs_exactly (u : Text.Alphanumeric) (user password program path content : String)
    (args : List String) :
    (∀ s, Shell.tokens (shellEscape s).toList = some [.word (s.toList.map .quoted)]) ∧
    (∀ c, (sudoStdinWriteAsUser user password (program :: args) content).Asks (.run c) ↔
      (Text.hasNul user = false ∧ (program :: args).any Text.hasNul = false) ∧
      c = ⟨some user, ["sudo", "-S", "-k", "sh", "-c",
        decodeInto (" ".intercalate ((program :: args).map shellEscape)) content],
        some (password ++ "\n")⟩) ∧
    Executes (decodeInto (" ".intercalate ((program :: args).map shellEscape)) content)
      (program :: args) content ∧
    (∀ c, (writeAsUser u path content user).Asks (.run c) ↔
      (isValidUsername u user ∧ PassesAsHome (fun _ _ => True) path user ∧
        Text.hasNul path = false) ∧
      c = ⟨none, ["sudo", "-n", "-u", user, "--", "sh", "-c",
        decodeInto ("tee -- " ++ shellEscape path) content], none⟩) ∧
    Executes (decodeInto ("tee -- " ++ shellEscape path) content) ["tee", "--", path] content := by
  refine ⟨fun s => ?_, fun c => ?_, executes_decodeInto (pipeline_shellEscape program args),
    fun c => ?_, executes_decodeInto (pipeline_tee path)⟩
  · rw [toList_shellEscape, Shell.tokens_quote]
  · rw [asks_sudoStdinWriteAsUser_iff, hasNul_intercalate_shellEscape]
  · rw [← Prog.asksIf_true_iff, asksIf_writeAsUser_iff]

end Tenodera.Agent.Host

import Mathlib.Data.List.Basic

/-!
# The command language of a POSIX shell

A script is read into tokens: words and operators.  A word is made of characters that are quoted
and characters that are bare.  `pipeline` reads the scripts that are one pipeline of simple
commands, which the shell runs as they stand: no other operator, and no word that is expanded, that
is reserved or that assigns a variable.  `Scans` collects what a text adds to the tokens; its rules
read a script piece by piece.
-/

namespace Shell

/-! ## Tokens -/

inductive Piece
  /-- A character that stands for itself. -/
  | quoted (c : Char)
  /-- A character with the meaning that the shell gives it. -/
  | bare (c : Char)
  deriving DecidableEq, Repr

def Piece.char : Piece → Char
  | quoted c | bare c => c

abbrev Word := List Piece

inductive Token
  | word (w : Word)
  | operator (text : List Char)
  deriving DecidableEq, Repr

def operators : List (List Char) :=
  ["|", "||", "&", "&&", ";", ";;", "<", "<<", "<<-", "<&", "<>", ">", ">>", ">&", ">|", "(", ")",
    "\n"].map String.toList

def isOperatorStart (c : Char) : Bool :=
  c = '|' || c = '&' || c = ';' || c = '<' || c = '>' || c = '(' || c = ')' || c = '\n'

def isBlank (c : Char) : Bool := c = ' ' || c = '\t'

inductive Quotation
  | none
  | single
  | double
  deriving DecidableEq, Repr

/-- What has been read of the token that is not complete yet. -/
inductive Mode
  | start
  | comment
  | operator (text : List Char)
  | word (w : Word) (q : Quotation)
  deriving DecidableEq, Repr

structure State where
  mode : Mode
  /-- A backslash has been read whose character comes next. -/
  escaped : Bool
  deriving DecidableEq, Repr

/-- A character, not quoted, that may start a token. -/
def startToken (c : Char) : State :=
  if isBlank c then ⟨.start, false⟩
  else if c = '#' then ⟨.comment, false⟩
  else if isOperatorStart c then ⟨.operator [c], false⟩
  else if c = '\'' then ⟨.word [] .single, false⟩
  else if c = '"' then ⟨.word [] .double, false⟩
  else if c = '\\' then ⟨.start, true⟩
  else ⟨.word [.bare c] .none, false⟩

/-- The characters that keep their meaning between double quotes. -/
def isSpecial (c : Char) : Bool := c = '$' || c = '\x60'

/-- A character behind a backslash; a newline there is taken out together with the backslash. -/
def stepEscaped (m : Mode) (c : Char) : List Token × State :=
  if c = '\n' then ([], ⟨m, false⟩)
  else
    match m with
    | .start | .comment => ([], ⟨.word [.quoted c] .none, false⟩)
    | .operator text => ([.operator text], ⟨.word [.quoted c] .none, false⟩)
    | .word w .double =>
      if isSpecial c || c = '"' || c = '\\' then ([], ⟨.word (w ++ [.quoted c]) .double, false⟩)
      else ([], ⟨.word (w ++ [.quoted '\\', .quoted c]) .double, false⟩)
    | .word w q => ([], ⟨.word (w ++ [.quoted c]) q, false⟩)

/-- A character that continues a word, or ends it. -/
def stepWord (w : Word) (c : Char) : Quotation → List Token × State
  | .none =>
    if isBlank c || isOperatorStart c then ([.word w], startToken c)
    else if c = '\'' then ([], ⟨.word w .single, false⟩)
    else if c = '"' then ([], ⟨.word w .double, false⟩)
    else if c = '\\' then ([], ⟨.word w .none, true⟩)
    else ([], ⟨.word (w ++ [.bare c]) .none, false⟩)
  | .single =>
    if c = '\'' then ([], ⟨.word w .none, false⟩)
    else ([], ⟨.word (w ++ [.quoted c]) .single, false⟩)
  | .double =>
    if c = '"' then ([], ⟨.word w .none, false⟩)
    else if c = '\\' then ([], ⟨.word w .double, true⟩)
    else if isSpecial c then ([], ⟨.word (w ++ [.bare c]) .double, false⟩)
    else ([], ⟨.word (w ++ [.quoted c]) .double, false⟩)

/-- The next character: the tokens that it completes, and what follows. -/
def step (s : State) (c : Char) : List Token × State :=
  if s.escaped then stepEscaped s.mode c
  else
    match s.mode with
    | .start => ([], startToken c)
    | .comment => if c = '\n' then ([], startToken c) else ([], s)
    | .operator text =>
      if text ++ [c] ∈ operators then ([], ⟨.operator (text ++ [c]), false⟩)
      else if c = '\\' then ([], ⟨.operator text, true⟩)
      else ([.operator text], startToken c)
    | .word w q => stepWord w c q

/-- The last token; a quotation that is still open has no end. -/
def finish : State → Option (List Token)
  | ⟨_, true⟩ => none
  | ⟨.start, false⟩ | ⟨.comment, false⟩ => some []
  | ⟨.operator text, false⟩ => some [.operator text]
  | ⟨.word w .none, false⟩ => some [.word w]
  | ⟨.word _ _, false⟩ => none

def scan : State → List Char → List Token × State
  | s, [] => ([], s)
  | s, c :: cs => ((step s c).1 ++ (scan (step s c).2 cs).1, (scan (step s c).2 cs).2)

/-- The tokens that are completed when the script goes on like this and ends; `none` when a
quotation is not closed. -/
def readFrom (s : State) (cs : List Char) : Option (List Token) :=
  (finish (scan s cs).2).map ((scan s cs).1 ++ ·)

def tokens (script : List Char) : Option (List Token) := readFrom ⟨.start, false⟩ script

example : tokens "a 'b|'\\'>>\"$x\" # d".toList =
    some [.word [.bare 'a'], .word [.quoted 'b', .quoted '|', .quoted '\''], .operator ['>', '>'],
      .word [.bare '$', .quoted 'x']] := by decide

/-! ## Pipelines -/

/-- The characters that make the shell replace a word by something else, when they are bare. -/
def expands : Piece → Bool
  | .quoted _ => false
  | .bare c => isSpecial c || c = '*' || c = '?' || c = '[' || c = '~' || c = '\x7b'

/-- The text of a word that nothing is replaced in. -/
def literal (w : Word) : Option String :=
  if w.any expands then none else some (String.ofList (w.map Piece.char))

def reservedWords : List String :=
  ["!", "\x7b", "\x7d", "case", "do", "done", "elif", "else", "esac", "fi", "for", "if", "in",
    "then", "until", "while", "function", "select", "time", "[[", "]]"]

/-- Reserved words are recognised when no character of them is quoted. -/
def isReserved (w : Word) : Bool :=
  reservedWords.any fun r => w = r.toList.map .bare

/-- A word with a bare equals sign may assign a variable. -/
def mayAssign (w : Word) : Bool := .bare '=' ∈ w

/-- The arguments of a simple command, its name first. -/
def command : List Word → Option (List String)
  | [] => none
  | w :: ws => if isReserved w || mayAssign w then none else (w :: ws).mapM literal

/-- The commands of a pipeline; the words of the first one, so far, are given. -/
def commands (ws : List Word) : List Token → Option (List (List String))
  | [] => (command ws).map ([·])
  | .word w :: ts => commands (ws ++ [w]) ts
  | .operator text :: ts =>
    if text = ['|'] then do return (← command ws) :: (← commands [] ts) else none

/-- The commands of a script that is a pipeline. -/
def pipeline (script : List Char) : Option (List (List String)) :=
  (tokens script).bind (commands [])

/-! ## Running a pipeline -/

structure Process where
  argv : List String
  stdin : List UInt8
  deriving DecidableEq, Repr

/-- The last process of a pipeline, given what the commands before it write. -/
def lastProcess (output : List String → List UInt8 → Option (List UInt8)) :
    List UInt8 → List (List String) → Option Process
  | _, [] => none
  | input, [argv] => some ⟨argv, input⟩
  | input, argv :: rest => (output argv input).bind fun input => lastProcess output input rest

/-! ## Reading a script piece by piece -/

section

variable {s : State} {w : Word} {cs : List Char} {ws : List Word}

theorem scan_append (s : State) (xs ys : List Char) :
    scan s (xs ++ ys) =
      ((scan s xs).1 ++ (scan (scan s xs).2 ys).1, (scan (scan s xs).2 ys).2) := by
  induction xs generalizing s with
  | nil => rfl
  | cons c xs ih =>
    rw [List.cons_append, scan, ih]
    simp only [scan, List.append_assoc]

/-- What a text adds, and what the rest of the script adds then. -/
theorem readFrom_append (s : State) (xs ys : List Char) :
    readFrom s (xs ++ ys) = (readFrom (scan s xs).2 ys).map ((scan s xs).1 ++ ·) := by
  rw [readFrom, readFrom, scan_append, Option.map_map]
  refine congrArg (fun f => Option.map f _) (funext fun ts => ?_)
  exact List.append_assoc _ _ _

theorem readFrom_cons (s : State) (c : Char) (cs : List Char) :
    readFrom s (c :: cs) = (readFrom (step s c).2 cs).map ((step s c).1 ++ ·) := by
  have h := readFrom_append s [c] cs
  simpa [scan] using h

theorem scan_single (h : '\'' ∉ cs) :
    scan ⟨.word w .single, false⟩ cs = ([], ⟨.word (w ++ cs.map .quoted) .single, false⟩) := by
  induction cs generalizing w with
  | nil => simp [scan]
  | cons c cs ih =>
    have hc : c ≠ '\'' := fun hc => h (hc ▸ List.mem_cons_self)
    have hstep : step ⟨.word w .single, false⟩ c =
        ([], ⟨.word (w ++ [.quoted c]) .single, false⟩) := by
      simp [step, stepWord, hc]
    simp only [scan, hstep, ih fun hmem => h (List.mem_cons_of_mem c hmem), List.map_cons,
      List.append_assoc, List.nil_append, List.singleton_append]

/-! ## Quoting -/

/-- A character between single quotes; a single quote is put between two such texts. -/
def quoteChar (c : Char) : List Char := if c = '\'' then ['\'', '\\', '\'', '\''] else [c]

/-- A text as one word in which nothing is expanded. -/
def quote (cs : List Char) : List Char := '\'' :: cs.flatMap quoteChar ++ ['\'']

theorem scan_flatMap_quoteChar (w : Word) (cs : List Char) :
    scan ⟨.word w .single, false⟩ (cs.flatMap quoteChar) =
      ([], ⟨.word (w ++ cs.map .quoted) .single, false⟩) := by
  induction cs generalizing w with
  | nil => simp [scan]
  | cons c cs ih =>
    have hchar : scan ⟨.word w .single, false⟩ (quoteChar c) =
        ([], ⟨.word (w ++ [.quoted c]) .single, false⟩) := by
      by_cases hc : c = '\''
      · subst hc
        rfl
      · rw [quoteChar, if_neg hc]
        exact scan_single (by simpa using Ne.symm hc)
    rw [List.flatMap_cons, scan_append, hchar, ih, List.map_cons, List.append_assoc]
    rfl

theorem scan_quote (w : Word) (cs : List Char) :
    scan ⟨.word w .none, false⟩ (quote cs) =
      ([], ⟨.word (w ++ cs.map .quoted) .none, false⟩) := by
  have hopen : step ⟨.word w .none, false⟩ '\'' = ([], ⟨.word w .single, false⟩) := rfl
  rw [quote, List.cons_append, scan, hopen, scan_append, scan_flatMap_quoteChar]
  rfl

/-- A quoted text that starts a token. -/
theorem scan_start_quote (cs : List Char) :
    scan ⟨.start, false⟩ (quote cs) = ([], ⟨.word (cs.map .quoted) .none, false⟩) :=
  scan_quote [] cs

/-- A quoted text is read as one word, the text. -/
theorem tokens_quote (cs : List Char) : tokens (quote cs) = some [.word (cs.map .quoted)] := by
  rw [tokens, readFrom, scan_start_quote]
  rfl

/-- Quoted texts that are arguments of a command. -/
theorem readFrom_quotes (w : Word) (args : List (List Char)) :
    readFrom ⟨.word w .none, false⟩ (args.flatMap fun a => ' ' :: quote a) =
      some (.word w :: args.map fun a => .word (a.map .quoted)) := by
  induction args generalizing w with
  | nil => rfl
  | cons a args ih =>
    have hblank : step ⟨.word w .none, false⟩ ' ' = ([.word w], ⟨.start, false⟩) := rfl
    rw [List.flatMap_cons, List.cons_append, readFrom_cons, hblank, readFrom_append,
      scan_start_quote, ih]
    rfl

theorem any_expands_quoted (cs : List Char) : (cs.map Piece.quoted).any expands = false := by
  induction cs with
  | nil => rfl
  | cons c cs ih => exact ih

@[simp]
theorem literal_quoted (cs : List Char) :
    literal (cs.map .quoted) = some (String.ofList cs) := by
  have hchars : (cs.map Piece.quoted).map Piece.char = cs := by
    rw [List.map_map]
    exact List.map_id cs
  rw [literal, any_expands_quoted, hchars]
  rfl

theorem mapM_literal_quoted (args : List (List Char)) :
    (args.map fun a => a.map Piece.quoted).mapM literal = some (args.map String.ofList) := by
  induction args with
  | nil => rfl
  | cons a args ih => simp [ih]

theorem isReserved_quoted (cs : List Char) : isReserved (cs.map .quoted) = false := by
  cases cs with
  | nil => decide
  | cons c cs => simp [isReserved, reservedWords]

theorem mayAssign_quoted (cs : List Char) : mayAssign (cs.map .quoted) = false := by
  simp [mayAssign]

/-- A command whose name and arguments are quoted. -/
theorem command_quoted (program : List Char) (args : List (List Char)) :
    command ((program :: args).map fun a => a.map .quoted) =
      some ((program :: args).map String.ofList) := by
  rw [List.map_cons, command, isReserved_quoted, mayAssign_quoted, ← List.map_cons,
    mapM_literal_quoted]
  rfl

theorem commands_words (ws vs : List Word) :
    commands ws (vs.map .word) = (command (ws ++ vs)).map ([·]) := by
  induction vs generalizing ws with
  | nil => rw [List.append_nil]; rfl
  | cons v vs ih =>
    rw [List.map_cons, commands, ih, List.append_assoc]
    rfl

end

end Shell

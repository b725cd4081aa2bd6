import Tenodera.Agent.Host

/-!
# Programs that only look at the host

`Look α` is a program with the proof that it is quiet, so a handler that is written in it cannot
change the state of its host on any request.  Its operations ask, where they are used, that the
command or the file operation only looks.
-/

namespace Tenodera.Agent.Host

open Protocol Effect Path

structure Look (α : Type) where
  prog : HostM α
  quiet : Quiet prog

namespace Look

instance : Monad Look where
  pure a := ⟨pure a, quiet_pure a⟩
  bind p f := ⟨p.prog >>= fun a => (f a).prog, p.quiet.bind fun a => (f a).quiet⟩

variable {α : Type}

def perform (o : Op) (h : o.changesState = false := by rfl) : Look (Reply o) :=
  ⟨Host.perform o, (quiet_perform o).2 h⟩

def readFile (path : String) : Look (Option String) := perform (.readFile path)

/-- Files that are read one after the other. -/
def readFiles (paths : List String) : Look Unit := paths.forM fun path => do
  let _ ← readFile path

def readDir (path : String) : Look (List String) := perform (.readDir path)

def pathExists (path : String) : Look Bool := perform (.pathExists path)

/-- Words that the handler reads out of what it has seen. -/
def words : Look (List String) := perform .words

def word : Look String := do return (← words).headD ""

/-- A decision that depends on what the handler has seen. -/
def verdict : Look Bool := perform .verdict

/-- The answer, put together from what the handler has seen. -/
def answer : Look Value := perform .json

/-- A number that the handler counts to: how often a stream ticks. -/
def count : Look ℕ := do return (← words).length

/-- A command, as the agent or as a user. -/
def spawn (runAs : Option String) (argv : List String) (stdin : Option String)
    (h : observes (stripSudo argv) = true := by rfl) : Look (Except String Output) :=
  ⟨Host.run runAs argv stdin, quiet_run_iff.2 (Or.inr h)⟩

def run (argv : List String) (h : observes (stripSudo argv) = true := by rfl) :
    Look (Except String Output) := spawn none argv none h

/-- Whether a command ends with success. -/
def succeeded (argv : List String) (h : observes (stripSudo argv) = true := by rfl) :
    Look Bool := do
  match ← run argv h with
  | .error _ => return false
  | .ok out => return out.success

def runCmd (argv : List String) (h : observes (stripSudo argv) = true := by rfl) : Look String :=
  ⟨Host.runCmd argv, quiet_runCmd h⟩

def which (cmd : String) : Look Bool := ⟨Host.which cmd, quiet_which cmd⟩

def canonicalize (path : String) : Look (Option PathBuf) :=
  ⟨Host.canonicalize path, quiet_canonicalize path⟩

/-- The path as the host knows it. -/
def canonicalText (path : String) : Look (Option String) := do
  return (← canonicalize path).map render

def lookupUser (user : String) : Look (Option Passwd) :=
  ⟨Host.lookupUser user, quiet_lookupUser user⟩

def sudoAsUser (user password : String) (args : List String)
    (h : observes args = true := by rfl) : Look Value :=
  ⟨Host.sudoAsUser user password args, quiet_sudoAsUser h⟩

def sudoOutputAsUser (user password : String) (args : List String)
    (h : observes args = true := by rfl) : Look String :=
  ⟨Host.sudoOutputAsUser user password args, quiet_sudoOutputAsUser h⟩

def runCmdAsUser (user : String) (args : List String)
    (h : observes (stripSudo args) = true := by rfl) : Look UserReadOutcome :=
  ⟨Host.runCmdAsUser user args, quiet_runCmdAsUser h⟩

def brokered (u : Text.Alphanumeric) (user password : String) (args : List String)
    (h : observes args = true := by rfl) (h' : observes (stripSudo args) = true := by rfl) :
    Look (Option String) :=
  ⟨Host.brokered u user password args, quiet_brokered_iff.2
    ⟨fun _ => Or.inr (Or.inr h), fun _ _ => Or.inr h'⟩⟩

/-! ## What the operations of a program satisfy -/

section

variable {β : Type} {P : Op → Prop}

theorem only_bind {p : Look α} {f : α → Look β} (hp : p.prog.Only P)
    (hf : ∀ a, (f a).prog.Only P) : (p >>= f).prog.Only P :=
  Prog.Only.bind hp hf

theorem only_findM? {l : List α} {g : α → Look Bool} (h : ∀ a, (g a).prog.Only P) :
    (l.findM? g).prog.Only P := by
  induction l with
  | nil => exact Prog.only_pure _
  | cons a l ih =>
    refine only_bind (h a) fun b => ?_
    cases b
    · exact ih
    · exact Prog.only_pure _

theorem only_forIn {l : List α} {b : β} {g : α → β → Look (ForInStep β)}
    (h : ∀ a b, (g a b).prog.Only P) : (forIn l b g).prog.Only P := by
  induction l generalizing b with
  | nil => exact Prog.only_pure _
  | cons a l ih =>
    rw [List.forIn_cons]
    refine only_bind (h a b) fun next => ?_
    cases next
    · exact Prog.only_pure _
    · exact ih

end

end Look

end Tenodera.Agent.Host

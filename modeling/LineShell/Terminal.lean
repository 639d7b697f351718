import LineShell.Startup

/-!
# A shell at a terminal

At a terminal the shell shows a prompt, takes a line, runs it and shows the next prompt. A line that
is interrupted is dropped, and the end of input ends the shell with 0. So does a line that the
terminal fails to read, after a message, unless the read was only interrupted. Lines typed have no
location in reports.
-/

namespace LineShell

/-- What comes of a prompt. -/
inductive Keystroke where
  /-- The user types a line and enters it. -/
  | enter (line : Text)
  /-- The user drops the line. -/
  | interrupt
  /-- The user ends the input. -/
  | endOfInput
  /-- The terminal fails to read a line. -/
  | fault (cause : IoError)
  deriving DecidableEq, Repr

/-- The prompt of a user in a directory. -/
def prompt (user : String) (directory : Location) : String :=
  s!"{user}@<{String.ofList directory.path}> <: "

/-- A prompt and what followed it. -/
structure Exchange where
  /-- The working directory when the prompt was shown. -/
  directory : Location
  /-- What was shown up to the next prompt. -/
  entries : List Entry

/-- A shell at a terminal after some keystrokes. -/
structure Conversation (σ : Type) where
  exchanges : List Exchange
  session : Session σ
  /-- How the shell's process ended, if it did. -/
  status : Option ExitStatus

namespace Session

variable {σ : Type} (host : Host σ)

/-- What a keystroke leads to, and how the shell ended if it did. -/
def answer (s : Session σ) : Keystroke → Option Ending × Session σ
  | .interrupt => (none, s)
  | .endOfInput => (some .completed, s)
  | .fault cause =>
    if cause = .system .interrupted then (none, s) else (some .completed, s.write (.unreadLine cause))
  | .enter line =>
    match s.runLine host line none with
    | (.ok _, s) => (none, s)
    | (.error e, s) => (some (.failed (.exhausted e)), s)

/-- Answers keystrokes until they are used up or the shell has ended. -/
def converse : List Keystroke → Session σ → Conversation σ
  | [], s => ⟨[], s, none⟩
  | key :: rest, s =>
    let (ending, next) := s.answer host key
    match ending with
    | some ending =>
      let (code, next) := next.exit ending
      ⟨[⟨s.context.directory, next.diary.drop s.diary.length⟩], next, some (.code code)⟩
    | none =>
      let exchange := ⟨s.context.directory, next.diary.drop s.diary.length⟩
      let conversation := converse rest next
      { conversation with exchanges := exchange :: conversation.exchanges }

/-- Runs a shell at a terminal, from its start until the keystrokes are used up or it has ended;
what was shown before the first prompt comes first. -/
def runTerminal (limit : Nat) (env : Environment) (words : List (List UInt8)) (context : Context)
    (state : σ) (keys : List Keystroke) : Option (List Entry × Conversation σ) :=
  (launch host limit env words context state).map fun
    | ⟨s, some status⟩ => (s.diary, ⟨[], s, some status⟩)
    | ⟨s, none⟩ => (s.diary, converse host keys s)

end Session

end LineShell

import LineShell.Session

/-!
# Scripts

A script is run line by line. A line ends at a line feed, and a carriage return right before it
belongs to the end; the last line may lack both. Lines are numbered from one, blank ones too. The
run goes on whatever the lines come to, and ends early only if a line cannot be read or is not
UTF-8, or after a line whose error leaves the shell unable to go on.

The bytes come from memory (`runText`), or block by block from a descriptor (`runFile`, `runInput`),
so that a script which is changed while it runs is read as it is then. Such a script may have no
end, so a run is given a limit on its steps.
-/

namespace LineShell

/-- Where the lines of a script come from. -/
structure Source where
  /-- Bytes that were read and not used yet. -/
  pending : List UInt8 := []
  /-- Where further bytes are read from, if there may be any. -/
  channel : Option Descriptor := none
  deriving DecidableEq, Repr

/-- Why the run of a script ends early. -/
inductive ScriptFailure where
  /-- Its file cannot be opened. -/
  | unopened (path : Text) (cause : IoError)
  /-- A line cannot be read. -/
  | unreadable (name : String) (cause : IoError)
  /-- A line ended in an error after which the shell cannot go on. -/
  | exhausted (error : ExecError)
  /-- It is the init file, and ended early itself. -/
  | initFile (path : Text) (failure : ScriptFailure)
  deriving DecidableEq, Repr

/-- The words for an early end. -/
def ScriptFailure.message : ScriptFailure → String
  | unopened path cause => s!"{String.ofList path}: {cause.message}"
  | unreadable name cause => s!"failed to read {name}: {cause.message}"
  | exhausted error => error.message
  | initFile path failure =>
    s!"Failed to run init script: {String.ofList path}: {failure.message}"

/-- How the run of a script ends. -/
inductive Ending where
  /-- There was no further line. -/
  | completed
  /-- It ended early. -/
  | failed (failure : ScriptFailure)
  deriving DecidableEq, Repr

namespace Script

/-- The line feed. -/
def lineFeed : UInt8 := 10

/-- The carriage return. -/
def carriageReturn : UInt8 := 13

/-- The bytes before the first line feed and those after it, if there is one. -/
def cutLine : List UInt8 → Option (List UInt8 × List UInt8)
  | [] => none
  | b :: bytes =>
    if b = lineFeed then some ([], bytes)
    else (cutLine bytes).map fun (line, rest) => (b :: line, rest)

/-- A line without a carriage return at its end. -/
def withoutReturn (line : List UInt8) : List UInt8 :=
  if line.getLast? = some carriageReturn then line.dropLast else line

end Script

namespace Session

open Script

variable {σ : Type} (host : Host σ)

/-- Reads the next block of a script; there is none after the end. -/
def nextBlock (s : Session σ) (source : Source) : Except IoError (List UInt8) × Session σ :=
  match source.channel with
  | none => (.ok [], s)
  | some d =>
    let (block, state) := host.readBlock s.state s.context d
    (block, { s with state })

/-- What a step of a script's run leads to. -/
inductive Progress where
  /-- The run goes on, at the line of the given number and with what is left of the source. -/
  | onward (number : Nat) (source : Source)
  | ended (ending : Ending)
  deriving DecidableEq, Repr

/-- Runs the line of the given number of the script `name`. After it the run goes on with `rest`. -/
def runScriptLine (name : String) (number : Nat) (line : List UInt8) (rest : Source) (s : Session σ) :
    Progress × Session σ :=
  match Text.ofUtf8? ⟨line.toArray⟩ with
  | none => (.ended (.failed (.unreadable name .notUtf8)), s)
  | some text =>
    match s.runLine host text (some ⟨number, name⟩) with
    | (.error e, s) => (.ended (.failed (.exhausted e)), s)
    | (.ok _, s) => (.onward (number + 1) rest, s)

/-- One step of a script's run: the next line is run if all of it was read, and otherwise a block is
read. A read that was only interrupted is begun anew. -/
def scriptStep (name : String) (number : Nat) (source : Source) (s : Session σ) :
    Progress × Session σ :=
  match cutLine source.pending with
  | some (line, rest) =>
    runScriptLine host name number (withoutReturn line) { source with pending := rest } s
  | none =>
    match s.nextBlock host source with
    | (.error cause, s) =>
      if cause = .system .interrupted then (.onward number source, s)
      else (.ended (.failed (.unreadable name cause)), s)
    | (.ok (b :: block), s) =>
      (.onward number { source with pending := source.pending ++ b :: block }, s)
    | (.ok [], s) =>
      if source.pending.isEmpty then (.ended .completed, s)
      else runScriptLine host name number source.pending { source with pending := [] } s

/-- Runs a script from the line of the given number on. There is no result if that takes
more than `limit` steps. -/
def runLines (name : String) : Nat → Nat → Source → Session σ → Option (Ending × Session σ)
  | 0, _, _, _ => none
  | limit + 1, number, source, s =>
    match scriptStep host name number source s with
    | (.ended ending, s) => some (ending, s)
    | (.onward number source, s) => runLines name limit number source s

/-- Runs a script from memory. -/
def runText (s : Session σ) (name : String) (bytes : List UInt8) : Option (Ending × Session σ) :=
  runLines host name (bytes.length + 2) 1 { pending := bytes } s

/-- Runs a script from a descriptor, in at most `limit` steps. -/
def runChannel (limit : Nat) (s : Session σ) (name : String) (d : Descriptor) :
    Option (Ending × Session σ) :=
  runLines host name limit 1 { channel := some d } s

/-- The session with another descriptor table. -/
def withTable (s : Session σ) (table : Table) : Session σ :=
  { s with context := { s.context with table } }

/-- Runs the script in a file, which is open for as long as it runs. -/
def runFile (limit : Nat) (s : Session σ) (path : Text) : Option (Ending × Session σ) :=
  match host.openFile s.state s.context path with
  | (.error cause, state) => some (.failed (.unopened path cause), { s with state })
  | (.ok handle, state) =>
    let (d, table) := s.context.table.add (.file handle)
    (runChannel host limit ({ s with state }.withTable table) (String.ofList path) d).map
      fun (ending, s) => (ending, s.withTable (s.context.table.close d))

/-- How the standard input is called in messages. -/
def inputName : String := "<stdin>"

/-- Runs the standard input as a script. -/
def runInput (limit : Nat) (s : Session σ) : Option (Ending × Session σ) :=
  runChannel host limit s inputName .stdin

end Session

end LineShell

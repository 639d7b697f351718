import LineShell.Invocation
import LineShell.Script

/-!
# From start to exit

The shell reads its command line, runs the init file, and then runs the script or its standard
input. It exits with 1 if the command line is refused, or if one of these runs ends early; otherwise
with 0, whatever the lines came to. If it meets a word of its command line that is not UTF-8 it
panics before it does any of this, and then there is no code to exit with.
-/

namespace LineShell

/-- How the process of a shell ends. -/
inductive ExitStatus where
  /-- It exits with a code. -/
  | code (code : Int)
  /-- It panics at a word of its command line that is not UTF-8. What the system then sees depends on
  how the shell was built: a code of the runtime's own, or a signal. -/
  | panicked (word : List UInt8)
  deriving DecidableEq, Repr

/-- A shell that has run as far as it can without its standard input. -/
structure Launch (σ : Type) where
  session : Session σ
  /-- How the shell's process ended, if it did. -/
  status : Option ExitStatus

namespace Session

variable {σ : Type} (host : Host σ) (limit : Nat)

/-- The session of a shell that has not run anything. -/
def initial (format : ReportFormat) (context : Context) (state : σ) : Session σ :=
  { store := .empty, format, interrupt := some {}, context, state }

/-- Whether something is at a path. -/
def fileExists (s : Session σ) (path : Text) : Bool :=
  match host.locate s.state s.context path with
  | .ok _ => true
  | .error _ => false

/-- The session of a shell without an init file: the search path is taken from the environment, and
a remark says why. -/
def withoutInitFile (s : Session σ) (env : Environment) (remark : Remark) : Session σ :=
  { s.write (.remark remark) with store := .ofEnvironmentPath env.variables.path? }

/-- Runs the init file, unless there is none: no home directory is known, or the file in it does not
exist. -/
def runInitFile (s : Session σ) (env : Environment) (settings : Settings) :
    Option (Ending × Session σ) :=
  match settings.initFile with
  | none => some (.completed, s.withoutInitFile env .homeUnknown)
  | some path =>
    if settings.initExplicit || s.fileExists host path then
      (s.runFile host limit path).map fun
        | (.failed failure, s) => (.failed (.initFile path failure), s)
        | (.completed, s) => (.completed, s)
    else some (.completed, s.withoutInitFile env (.initFileMissing path))

/-- The code that a shell exits with whose last run ended so, and the session in which the reason
for an early end is reported. -/
def exit (s : Session σ) : Ending → Int × Session σ
  | .completed => (0, s)
  | .failed failure =>
    let report := Report.ofIo failure.message
    (report.exitCode, s.showReport report)

/-- The session in which it is remarked if there is no search path. -/
def remarkOnPath (s : Session σ) : Session σ :=
  if s.store.path?.isNone then s.write (.remark .pathUndefined) else s

/-- A shell that exits. -/
def exited (outcome : Int × Session σ) : Launch σ :=
  ⟨outcome.2, some (.code outcome.1)⟩

/-- Runs the init file, and the script if there is one. -/
def runSettings (s : Session σ) (env : Environment) (settings : Settings) : Option (Launch σ) :=
  match s.runInitFile host limit env settings with
  | none => none
  | some (.failed failure, s) => some (exited (s.exit (.failed failure)))
  | some (.completed, s) =>
    match settings.script with
    | none => some ⟨s.remarkOnPath, none⟩
    | some script =>
      (s.remarkOnPath.runFile host limit script).map fun (ending, s) => exited (s.exit ending)

/-- Starts a shell whose command line was read. -/
def launchParsed (env : Environment) (context : Context) (state : σ) :
    Except UsageError Invocation → Option (Launch σ)
  | .error e =>
    let report := Report.usage e.message
    some (exited (report.exitCode, (initial env.format context state).showReport report))
  | .ok .help =>
    some (exited (0, (initial env.format context state).write (.help Invocation.helpText)))
  | .ok (.run settings) => (initial settings.format context state).runSettings host limit env settings

/-- Starts a shell with the given command line. -/
def launch (env : Environment) (words : List (List UInt8)) (context : Context) (state : σ) :
    Option (Launch σ) :=
  match Invocation.parseWords env words with
  | .error word => some ⟨initial env.format context state, some (.panicked word)⟩
  | .ok parsed => launchParsed host limit env context state parsed

/-- Runs the standard input of a shell that has not ended without it. -/
def finish (launch : Launch σ) : Option (ExitStatus × Session σ) :=
  match launch with
  | ⟨s, some status⟩ => some (status, s)
  | ⟨s, none⟩ =>
    (s.runInput host limit).map fun (ending, s) =>
      let (code, s) := s.exit ending
      (.code code, s)

/-- Runs a shell whose standard input is no terminal, from start to end, and says how its process
ends. There is no result if a script takes more than `limit` steps. -/
def runPiped (env : Environment) (words : List (List UInt8)) (context : Context) (state : σ) :
    Option (ExitStatus × Session σ) :=
  (launch host limit env words context state).bind (finish host limit)

end Session

end LineShell

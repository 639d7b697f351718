import LineShell.Report
import LineShell.Status
import LineShell.Text.Quoted

/-!
# Preparing a stage

The system takes texts that end at the first NUL character, so before anything is started every text
of a stage is searched for one: the program's path, the arguments from left to right, the input and
the output. A stage that runs a built-in command cannot be prepared.
-/

namespace LineShell

/-- A stage that is ready to be started. -/
structure PreparedStage where
  /-- The command's name, by which messages call it. -/
  name : Text
  /-- The program's path. -/
  path : Text
  argv : List Text
  input : Option Text
  output : Option Text
  append : Bool
  deriving DecidableEq, Repr

/-- Why a pipeline was not started, or not to its end. -/
inductive ExecError where
  /-- A built-in command is one of several stages. -/
  | builtinInPipeline (command : Builtin)
  /-- A text of some stage holds a NUL character. -/
  | nulByte (text : Text)
  /-- A pipe could not be made. -/
  | pipe (cause : SystemError)
  /-- The stage of the given name could not be started. -/
  | fork (name : Text) (cause : SystemError)
  deriving DecidableEq, Repr

namespace ExecError

/-- The words for a pipeline that was not started. -/
def message : ExecError → String
  | builtinInPipeline command =>
    s!"'{String.ofList command.name}' is a shell built-in and must be the only command on the line"
  | nulByte text => s!"argument contains a NUL byte: {String.ofList (Text.quoted text)}"
  | pipe cause => s!"could not create pipe: {cause.numberedText}"
  | fork name cause => s!"could not start {String.ofList name}: {cause.symbolText}"

/-- Whether no later line could be run either. -/
def isFatal : ExecError → Bool
  | pipe cause | fork _ cause => cause.isExhaustion
  | builtinInPipeline _ | nulByte _ => false

/-- The command that the error is about, if it is about one. -/
def command? : ExecError → Option Text
  | builtinInPipeline command => some command.name
  | fork name _ => some name
  | nulByte _ | pipe _ => none

end ExecError

/-- The report on a pipeline that was not started. -/
def Report.ofExecError (e : ExecError) : Report :=
  { code := "SPAWN_ERROR", message := e.message, exitCode := StageStatus.cannotExecute,
    command := e.command?.map String.ofList }

namespace PreparedStage

/-- `t`, unless it holds a NUL character. -/
def withoutNul (t : Text) : Except ExecError Text :=
  if '\x00' ∈ t then .error (.nulByte t) else .ok t

/-- The optional text `t`, unless it holds a NUL character. -/
def withoutNul? : Option Text → Except ExecError (Option Text)
  | none => .ok none
  | some t => (withoutNul t).map some

/-- A stage made ready, or the first thing that stands against it. -/
def ofStage (stage : Stage) : Except ExecError PreparedStage := do
  match stage.program with
  | .builtin command => throw (.builtinInPipeline command)
  | .external path =>
    let path ← withoutNul path
    let argv ← stage.argv.mapM withoutNul
    let name ← withoutNul stage.name
    let input ← withoutNul? stage.redirects.input
    let output ← withoutNul? stage.redirects.output
    return ⟨name, path, argv, input, output, stage.redirects.append⟩

end PreparedStage

end LineShell

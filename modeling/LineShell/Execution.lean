import LineShell.Host

/-!
# Running a pipeline

A pipeline goes through these steps, of which each one that fails ends the run:

1. an empty pipeline does nothing, and a built-in command runs in the shell itself if it is alone;
2. every stage is made ready (`PreparedStage.ofStage`);
3. the pipes between the stages are made;
4. the stages are started from left to right, each with its own two pipe ends, which the shell
   closes right after; if one cannot be started, no further one is, and the ends that are left are
   closed;
5. every child that was started is waited for, from left to right.

The run keeps a record of its acts. A `Desk` is the state of a run: the shell's context, the
system's state and the record.
-/

namespace LineShell

/-- Something that the shell does in a run. -/
inductive Act where
  /-- A pipe was made, with these two ends. -/
  | piped (reader writer : Descriptor)
  /-- A descriptor was closed. -/
  | closed (descriptor : Descriptor)
  /-- A stage was started, or failed to be, from a shell with the descriptors `table`. -/
  | spawned (stage : PreparedStage) (ends : StageEnds) (siblings : List Descriptor) (table : Table)
      (outcome : Except SystemError ChildId)
  /-- A child was waited for by a shell with the descriptors `table`. -/
  | waited (child : ChildId) (table : Table) (reports : List WaitReport)
  /-- The working directory was changed, or failed to be. -/
  | moved (outcome : Except CdError (Text × Location))

/-- What a pipeline came to. -/
structure PipelineResult where
  exitCode : Int
  /-- Whether anything was run at all. -/
  started : Bool
  /-- The status of each stage. -/
  stages : List StageStatus
  /-- Why the pipeline was not run to its end. -/
  error : Option ExecError
  deriving DecidableEq, Repr

namespace PipelineResult

/-- Whether the pipeline was not run to its end. -/
def aborted (r : PipelineResult) : Bool :=
  r.error.isSome

/-- Whether the pipeline ran to its end without a failing stage. -/
def success (r : PipelineResult) : Bool :=
  r.error.isNone && r.exitCode == 0

/-- The result of a pipeline of `n` stages of which none was started. -/
def abortedBeforeSpawn (n : Nat) (e : ExecError) : PipelineResult :=
  ⟨StageStatus.cannotExecute, false, List.replicate n .notStarted, some e⟩

end PipelineResult

/-- The state of a run. -/
structure Desk (σ : Type) where
  context : Context
  /-- The state of the system. -/
  state : σ
  /-- What was done so far, oldest first. -/
  acts : List Act := []

namespace Desk

variable {σ : Type} (host : Host σ)

/-- The desk with one more act on record. -/
def record (desk : Desk σ) (act : Act) : Desk σ :=
  { desk with acts := desk.acts ++ [act] }

/-- Closes a descriptor. -/
def close (desk : Desk σ) (d : Descriptor) : Desk σ :=
  { desk with context := { desk.context with table := desk.context.table.close d } }.record (.closed d)

/-- Closes descriptors in their order. -/
def closeAll (desk : Desk σ) (ds : List Descriptor) : Desk σ :=
  ds.foldl close desk

/-- Makes a pipe, and gives its two ends. It needs two free descriptors. -/
def makePipe (desk : Desk σ) : Except SystemError (Descriptor × Descriptor) × Desk σ :=
  let context := desk.context
  if context.table.hasRoom 2 then
    match host.makePipe desk.state context.pipesMade with
    | .error cause => (.error cause, desk)
    | .ok state =>
      let (reader, table) := context.table.add (.pipeReader context.pipesMade)
      let (writer, table) := table.add (.pipeWriter context.pipesMade)
      let context := { context with table, pipesMade := context.pipesMade + 1 }
      (.ok (reader, writer), { desk with context, state }.record (.piped reader writer))
  else (.error .tooManyOpenFiles, desk)

/-- Makes up to `n` pipes: those that could be made, and why the next one could not. -/
def makePipes : Nat → Desk σ → (List (Descriptor × Descriptor) × Option SystemError) × Desk σ
  | 0, desk => (([], none), desk)
  | n + 1, desk =>
    match desk.makePipe host with
    | (.error cause, desk) => (([], some cause), desk)
    | (.ok ends, desk) =>
      let ((more, cause?), desk) := makePipes n desk
      ((ends :: more, cause?), desk)

/-- Makes the wiring of `n` stages. If a pipe cannot be made, those made before it are closed. -/
def wire (n : Nat) (desk : Desk σ) : Except SystemError Wiring × Desk σ :=
  match desk.makePipes host (n - 1) with
  | ((pipes, none), desk) => (.ok (.ofPipes n pipes), desk)
  | ((pipes, some cause), desk) =>
    (.error cause, desk.closeAll (Wiring.ofPipes n pipes).pending)

/-- Starts one stage. -/
def spawn (desk : Desk σ) (stage : PreparedStage) (ends : StageEnds) (siblings : List Descriptor) :
    Except SystemError ChildId × Desk σ :=
  let (outcome, state) := host.spawn desk.state desk.context stage ends siblings
  (outcome, { desk with state }.record
    (.spawned stage ends siblings desk.context.table outcome))

/-- What came of starting the stages of a pipeline. -/
structure Started where
  /-- The children, by stage. -/
  children : List ChildId
  /-- Why a stage could not be started. -/
  error : Option ExecError
  /-- The pipe ends that no stage took. -/
  wiring : Wiring

/-- Starts the stages from `index` on, up to the first that cannot be started. A stage's pipe ends
are closed as soon as the stage was started or failed to. -/
def startAll : Nat → List PreparedStage → Wiring → Desk σ → Started × Desk σ
  | _, [], wiring, desk => (⟨[], none, wiring⟩, desk)
  | index, stage :: rest, wiring, desk =>
    let (ends, wiring) := wiring.take index
    match desk.spawn host stage ends wiring.pending with
    | (.error cause, desk) => (⟨[], some (.fork stage.name cause), wiring⟩, desk.closeAll ends.toList)
    | (.ok child, desk) =>
      let (more, desk) := startAll (index + 1) rest wiring (desk.closeAll ends.toList)
      ({ more with children := child :: more.children }, desk)

/-- Waits for one child. -/
def wait (desk : Desk σ) (child : ChildId) : StageStatus × Desk σ :=
  let (reports, state) := host.wait desk.state desk.context child
  (.ofReports reports, { desk with state }.record (.waited child desk.context.table reports))

/-- Waits for children in their order. -/
def waitAll : List ChildId → Desk σ → List StageStatus × Desk σ
  | [], desk => ([], desk)
  | child :: rest, desk =>
    let (status, desk) := desk.wait host child
    let (more, desk) := waitAll rest desk
    (status :: more, desk)

/-- The result of `n` stages, of which those with a status in `statuses` were started. -/
def collect (n : Nat) (statuses : List StageStatus) (error : Option ExecError) : PipelineResult :=
  let stages := statuses ++ List.replicate (n - statuses.length) .notStarted
  match error with
  | some e => ⟨StageStatus.cannotExecute, !statuses.isEmpty, stages, some e⟩
  | none => ⟨StageStatus.aggregate stages, true, stages, none⟩

/-- Runs the stages, which are ready, over their wiring. -/
def runStages (stages : List PreparedStage) (wiring : Wiring) (desk : Desk σ) :
    PipelineResult × Desk σ :=
  let (started, desk) := startAll host 0 stages wiring desk
  let (statuses, desk) := waitAll host started.children (desk.closeAll started.wiring.pending)
  (collect stages.length statuses started.error, desk)

/-- Runs a built-in command, and gives its exit code. -/
def runBuiltin (command : Builtin) (arguments : List Text) (desk : Desk σ) : Int × Desk σ :=
  match command with
  | .cd =>
    let outcome := Directory.change host.home (host.locate desk.state desk.context)
      (host.move desk.state desk.context) arguments.head?
    let desk := desk.record (.moved outcome)
    match outcome with
    | .ok (_, directory) => (0, { desk with context := { desk.context with directory } })
    | .error _ => (1, desk)

/-- Runs a pipeline without built-in commands. -/
def runExternal (pipeline : Pipeline) (desk : Desk σ) : PipelineResult × Desk σ :=
  match pipeline.stages.mapM PreparedStage.ofStage with
  | .error e => (.abortedBeforeSpawn pipeline.size e, desk)
  | .ok stages =>
    match desk.wire host pipeline.size with
    | (.error cause, desk) => (.abortedBeforeSpawn pipeline.size (.pipe cause), desk)
    | (.ok wiring, desk) => runStages host stages wiring desk

/-- Runs a pipeline. -/
def run (pipeline : Pipeline) (desk : Desk σ) : PipelineResult × Desk σ :=
  match pipeline.stages with
  | [] => (⟨0, false, [], none⟩, desk)
  | stage :: rest =>
    match pipeline.builtin? with
    | none => runExternal host pipeline desk
    | some command =>
      if rest.isEmpty then
        let (code, desk) := runBuiltin host command (stage.argv.drop 1) desk
        (⟨code, true, [.exited code], none⟩, desk)
      else (.abortedBeforeSpawn pipeline.size (.builtinInPipeline command), desk)

end Desk

end LineShell

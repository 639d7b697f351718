import LineShell.Host

/-!
# Setting up a child

A new child has a copy of the shell's descriptors. Before it becomes the stage's program it

1. opens the stage's input file, then its output file, if the stage has them;
2. makes 0 and 1 refer to them, or else to the stage's own pipe ends;
3. closes everything else that it was given: its own ends, the opened files and the ends of the
   stages to its right.

If something fails the child says so and exits.
-/

namespace LineShell.Child

/-- The code of a child that cannot open a file. -/
def redirectFailed : Int := 1

/-- The code of a child whose program does not exist. -/
def programNotFound : Int := 127

/-- How files are opened for a child; the answer is what a descriptor for the open file
refers to. -/
structure Opener (τ : Type) where
  /-- Opens a file for reading. -/
  openInput : τ → Table → Text → Except SystemError Channel × τ
  /-- Opens a file for writing, making it if there is none: `true` to write at its end, `false` to
  replace what it holds. -/
  openOutput : τ → Table → Text → Bool → Except SystemError Channel × τ

/-- Why a child exits before it becomes its program. -/
structure Failure where
  /-- What the message is about. -/
  subject : Text
  cause : SystemError
  code : Int
  deriving DecidableEq, Repr

/-- The words of a child that exits. -/
def Failure.message (f : Failure) : String :=
  s!"{shellName}: {String.ofList f.subject}: {f.cause.description}\n"

/-- The failure of a child whose program cannot be run. -/
def Failure.ofProgram (name : Text) (cause : SystemError) : Failure :=
  ⟨name, cause, if cause = .noEntry then programNotFound else StageStatus.cannotExecute⟩

variable {τ : Type} (opener : Opener τ)

/-- The descriptor that stands in for 0: the input file, newly opened, or else the pipe end. -/
def openInput (stage : PreparedStage) (ends : StageEnds) (table : Table) (state : τ) :
    Except Failure (Option Descriptor × Table) × τ :=
  match stage.input with
  | none => (.ok (ends.input, table), state)
  | some path =>
    match opener.openInput state table path with
    | (.error cause, state) => (.error ⟨path, cause, redirectFailed⟩, state)
    | (.ok channel, state) =>
      let (d, table) := table.add channel
      (.ok (some d, table), state)

/-- The descriptor that stands in for 1: the output file, newly opened, or else the pipe end. -/
def openOutput (stage : PreparedStage) (ends : StageEnds) (table : Table) (state : τ) :
    Except Failure (Option Descriptor × Table) × τ :=
  match stage.output with
  | none => (.ok (ends.output, table), state)
  | some path =>
    match opener.openOutput state table path stage.append with
    | (.error cause, state) => (.error ⟨path, cause, redirectFailed⟩, state)
    | (.ok channel, state) =>
      let (d, table) := table.add channel
      (.ok (some d, table), state)

/-- Makes `target` refer to what `source` refers to, if there is a source. -/
def attach (name : Text) (source : Option Descriptor) (target : Descriptor) (table : Table) :
    Except Failure Table :=
  match source with
  | none => .ok table
  | some source =>
    match table.duplicate source target with
    | .ok table => .ok table
    | .error cause => .error ⟨name, cause, StageStatus.cannotExecute⟩

/-- Puts the descriptors `input` and `output` in the places of 0 and 1, and closes all
of `given`. -/
def arrange (name : Text) (input output : Option Descriptor) (given : List Descriptor)
    (table : Table) : Except Failure Table := do
  let table ← attach name input .stdin table
  let table ← attach name output .stdout table
  let given := given.filter fun d => d != .stdin && d != .stdout
  return table.closeAll given

/-- The descriptors with which a stage's program starts, from those of the shell. -/
def setUp (stage : PreparedStage) (ends : StageEnds) (siblings : List Descriptor) (table : Table)
    (state : τ) : Except Failure Table × τ :=
  match openInput opener stage ends table state with
  | (.error failure, state) => (.error failure, state)
  | (.ok (input, table), state) =>
    match openOutput opener stage ends table state with
    | (.error failure, state) => (.error failure, state)
    | (.ok (output, table), state) =>
      let given := ends.toList ++ input.toList ++ output.toList ++ siblings
      (arrange stage.name input output given table, state)

end LineShell.Child

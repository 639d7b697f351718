import LineShell.Descriptor
import LineShell.Directory
import LineShell.Preparation
import LineShell.SearchPath
import LineShell.Wiring

/-!
# What the shell asks of the system

The shell itself holds a `Context`: its descriptors, its working directory and how many pipes it has
made. All else is behind a `Host`, whose operations look at or change a state of type `σ`. Nothing
is assumed about a host here, so what is said of the shell holds whatever its children and files do.
-/

namespace LineShell

/-- What tells children apart. -/
abbrev ChildId := Nat

/-- What the shell's process holds itself. -/
structure Context where
  table : Table
  directory : Location
  /-- How many pipes were made; the next pipe gets this number. -/
  pipesMade : Nat := 0
  deriving DecidableEq, Repr

/-- What the children of a pipeline wrote. -/
structure Output where
  stdout : ByteArray := .empty
  stderr : ByteArray := .empty

/-- The operations of the system under the shell. -/
structure Host (σ : Type) where
  /-- The path of the user's home directory, if it is known. -/
  home : Option Text
  /-- Makes the pipe of the given number. -/
  makePipe : σ → Nat → Except SystemError σ
  /-- Starts a child for a stage with its own pipe ends, beside those of stages not yet started. -/
  spawn : σ → Context → PreparedStage → StageEnds → List Descriptor → Except SystemError ChildId × σ
  /-- What looking at a child says, again and again until it has ended. -/
  wait : σ → Context → ChildId → List WaitReport × σ
  /-- Looks up a place. -/
  locate : σ → Context → Locator
  /-- Goes to a directory. -/
  move : σ → Context → Mover
  /-- Lists a directory. -/
  list : σ → Context → Listing
  /-- Opens a file for reading, and gives its handle. -/
  openFile : σ → Context → Text → Except IoError Nat × σ
  /-- Reads the next block from a descriptor; it is empty at the end. -/
  readBlock : σ → Context → Descriptor → Except IoError (List UInt8) × σ
  /-- What the children wrote since the last time. -/
  takeOutput : σ → Output × σ

end LineShell

import LineShell.Descriptor

/-!
# The pipes between stages

Between each two neighbouring stages of a pipeline runs one pipe: the left stage writes to it and
the right stage reads from it. A `Wiring` holds the ends that no stage has taken yet. A stage takes
its ends once; after that, and for an index without a stage, there is nothing to take.
-/

namespace LineShell

/-- The pipe ends that belong to one stage. -/
structure StageEnds where
  /-- The end that the stage reads from. -/
  input : Option Descriptor := none
  /-- The end that the stage writes to. -/
  output : Option Descriptor := none
  deriving DecidableEq, Repr

/-- The ends, input before output. -/
def StageEnds.toList (ends : StageEnds) : List Descriptor :=
  ends.input.toList ++ ends.output.toList

/-- The pipe ends that no stage has taken yet, by stage. -/
structure Wiring where
  stages : List (Option StageEnds)
  deriving DecidableEq, Repr

namespace Wiring

/-- The ends of a row of stages whose first one reads from `input`, with a pipe, given by its reader
and its writer, after each stage but the last. -/
def chain (input : Option Descriptor) : List (Descriptor × Descriptor) → List StageEnds
  | [] => [⟨input, none⟩]
  | (reader, writer) :: rest => ⟨input, some writer⟩ :: chain (some reader) rest

/-- The wiring of `n` stages by the given pipes. -/
def ofPipes (n : Nat) (pipes : List (Descriptor × Descriptor)) : Wiring :=
  if n = 0 then ⟨[]⟩ else ⟨(chain none pipes).map some⟩

/-- The ends of the stage at `index`, and the wiring without them. -/
def take (w : Wiring) (index : Nat) : StageEnds × Wiring :=
  ((w.stages[index]?.join).getD {}, ⟨w.stages.set index none⟩)

/-- The ends that are left, in the order of the stages. -/
def pending (w : Wiring) : List Descriptor :=
  w.stages.flatMap fun ends => (ends.map StageEnds.toList).getD []

end Wiring

end LineShell

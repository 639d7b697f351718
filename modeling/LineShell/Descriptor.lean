import LineShell.Fault

/-!
# Descriptors

A process refers to open files and pipe ends by small numbers. Its `Table` says what each number
refers to, and how many may be in use. A new descriptor always gets the lowest free number, so as
long as 0, 1 and 2 are in use it lies above them.
-/

namespace LineShell

/-- The number of a descriptor. -/
abbrev Descriptor := Nat

namespace Descriptor

/-- Where a process reads its input. -/
abbrev stdin : Descriptor := 0

/-- Where a process writes its output. -/
abbrev stdout : Descriptor := 1

/-- Where a process writes its complaints. -/
abbrev stderr : Descriptor := 2

end Descriptor

/-- What a descriptor refers to. -/
inductive Channel where
  /-- The end of a pipe that is read from. -/
  | pipeReader (pipe : Nat)
  /-- The end of a pipe that is written to. -/
  | pipeWriter (pipe : Nat)
  /-- An open file. -/
  | file (handle : Nat)
  deriving DecidableEq, Repr

/-- Whether a channel is an end of a pipe. -/
def Channel.isPipeEnd : Channel → Bool
  | pipeReader _ | pipeWriter _ => true
  | file _ => false

/-- The descriptors of a process. -/
structure Table where
  /-- The descriptors in use and what they refer to. -/
  slots : List (Descriptor × Channel)
  /-- How many descriptors may be in use at once, if that is limited. -/
  limit : Option Nat := none
  deriving DecidableEq, Repr

namespace Table

/-- What `d` refers to, if it is in use. -/
def get? (t : Table) (d : Descriptor) : Option Channel :=
  t.slots.lookup d

/-- The descriptors in use. -/
def used (t : Table) : List Descriptor :=
  t.slots.map Prod.fst

/-- The number of descriptors in use. -/
def size (t : Table) : Nat :=
  t.slots.length

/-- Whether `count` more descriptors may be used. -/
def hasRoom (t : Table) (count : Nat) : Bool :=
  match t.limit with
  | some limit => decide (t.size + count ≤ limit)
  | none => true

/-- The table in which exactly `count` more descriptors may be used. -/
def withHeadroom (t : Table) (count : Nat) : Table :=
  { t with limit := some (t.size + count) }

/-- The lowest number that is not in use. -/
def lowestFree (t : Table) : Descriptor :=
  ((List.range (t.size + 1)).find? fun d => !t.used.contains d).getD t.size

/-- The table with a new descriptor for `channel`, and its number. -/
def add (t : Table) (channel : Channel) : Descriptor × Table :=
  (t.lowestFree, { t with slots := t.slots ++ [(t.lowestFree, channel)] })

/-- The table without `d`. -/
def close (t : Table) (d : Descriptor) : Table :=
  { t with slots := t.slots.filter (·.1 != d) }

/-- The table without any of `ds`. -/
def closeAll (t : Table) (ds : List Descriptor) : Table :=
  ds.foldl close t

/-- The table in which `target` refers to what `source` refers to. -/
def duplicate (t : Table) (source target : Descriptor) : Except SystemError Table :=
  match t.get? source with
  | none => .error .badDescriptor
  | some channel =>
    if source = target then .ok t
    else .ok { t with slots := (t.close target).slots ++ [(target, channel)] }

end Table

end LineShell

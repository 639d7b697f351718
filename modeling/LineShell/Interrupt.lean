/-!
# Interrupts

Once the shell listens for interrupts, one that arrives only raises a flag, which stays up until
it is taken.
-/

namespace LineShell

/-- Whether an interrupt arrived and was not taken yet. -/
structure Interrupt where
  pending : Bool := false
  deriving DecidableEq, Repr

namespace Interrupt

/-- An interrupt arrives. -/
def raise (_ : Interrupt) : Interrupt := ⟨true⟩

/-- Takes the interrupts that arrived: whether there were any, and the flag, lowered. -/
def take (i : Interrupt) : Bool × Interrupt := (i.pending, {})

end Interrupt

end LineShell

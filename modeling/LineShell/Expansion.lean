import LineShell.Fragment
import LineShell.Store

/-!
# Expansion of variable references

Every reference in a line is replaced by the value of its variable, in one pass over the fragments:
a value is never read again, so a `$` in it stays. Unknown names expand to nothing and are listed.
The only failure is an unterminated `${`.
-/

namespace LineShell

/-- A line after the replacement of its references. -/
structure Expansion where
  /-- The line with the values in place. -/
  line : Text
  /-- The names without a value, in the order of their references. -/
  unresolved : List Text
  deriving DecidableEq, Repr

/-- A `${` that no `}` follows. -/
structure UnterminatedBrace where
  /-- The number of bytes before it. -/
  position : Nat
  /-- The line from it on. -/
  rest : Text
  deriving DecidableEq, Repr

/-- The words for an unterminated brace. -/
def UnterminatedBrace.message (e : UnterminatedBrace) : String :=
  s!"Variable could not be parsed from '{String.ofList e.rest}' at position {e.position}: missing '\x7d'"

namespace Expansion

/-- What the reference to `name` is replaced by. -/
def ofReference (store : Store) (name : Text) : Expansion :=
  match store.get? name with
  | some value => ⟨value, []⟩
  | none => ⟨[], [name]⟩

/-- The expansion of one fragment after `position` bytes. A lone `$` stands for itself. -/
def ofFragment (store : Store) (position : Nat) : Fragment → Except UnterminatedBrace Expansion
  | .text content => .ok ⟨content, []⟩
  | .bare [] => .ok ⟨['$'], []⟩
  | .bare (c :: name) => .ok (ofReference store (c :: name))
  | .braced name => .ok (ofReference store name)
  | .unterminated rest => .error ⟨position, '$' :: '{' :: rest⟩

/-- One expansion followed by another. -/
def append (a b : Expansion) : Expansion :=
  ⟨a.line ++ b.line, a.unresolved ++ b.unresolved⟩

/-- The expansion of the fragments that follow `position` bytes of a line. -/
def ofFragments (store : Store) : Nat → List Fragment → Except UnterminatedBrace Expansion
  | _, [] => .ok ⟨[], []⟩
  | position, f :: rest => do
    let head ← ofFragment store position f
    let tail ← ofFragments store (position + Text.byteLength f.source) rest
    return head.append tail

end Expansion

/-- `line` with every reference replaced by its value in `store`. A line without `$` is its own
expansion. -/
def substitute (store : Store) (line : Text) : Except UnterminatedBrace Expansion :=
  if line.contains '$' then Expansion.ofFragments store 0 (Fragment.cut line)
  else .ok ⟨line, []⟩

end LineShell

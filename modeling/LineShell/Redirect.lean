import LineShell.Command

/-!
# Redirections of a command

In one segment of a pipeline, `<` names a file to read from, `>` a file to write and `>>` a file to
add to. The text before the first operator is the command; an operator's file name runs to the next
operator or the end, without the spaces around it. At most one input and one output operator are
allowed, in either order.
-/

namespace LineShell

/-- A redirection operator. -/
inductive Operator where
  | input
  | output
  | append
  deriving DecidableEq, Repr

namespace Operator

/-- How an operator is written. -/
def symbol : Operator → String
  | input => "<"
  | output => ">"
  | append => ">>"

/-- Whether an operator replaces the standard input. -/
def isInput : Operator → Bool
  | input => true
  | output | append => false

end Operator

/-- Why the redirections of a segment cannot be read. -/
inductive RedirectError where
  /-- A second input operator, or a second output operator. -/
  | duplicate (operator : Operator)
  /-- No file name follows the operator. -/
  | missingTarget (operator : Operator)
  deriving DecidableEq, Repr

/-- The words for an error in the redirections. -/
def RedirectError.message : RedirectError → String
  | duplicate operator => s!"More than one '{operator.symbol}' redirection in one command"
  | missingTarget operator => s!"Missing file name after '{operator.symbol}'"

namespace Redirects

/-- The text before the first operator, and each operator with the text after it up to the next. Two
`>` in a row are one operator. -/
def pieces : Text → Text × List (Operator × Text)
  | [] => ([], [])
  | '<' :: rest => ([], (.input, (pieces rest).1) :: (pieces rest).2)
  | '>' :: '>' :: rest => ([], (.append, (pieces rest).1) :: (pieces rest).2)
  | '>' :: rest => ([], (.output, (pieces rest).1) :: (pieces rest).2)
  | c :: rest => (c :: (pieces rest).1, (pieces rest).2)

/-- The first operator whose side, input or output, an earlier one already took. -/
def firstDuplicate? : Bool → Bool → List Operator → Option Operator
  | _, _, [] => none
  | input, output, op :: rest =>
    if op.isInput then
      if input then some op else firstDuplicate? true output rest
    else
      if output then some op else firstDuplicate? input true rest

/-- `r` with the file `target` in the place that `op` names. -/
def put (r : Redirects) (op : Operator) (target : Text) : Redirects :=
  match op with
  | .input => { r with input := some target }
  | .output => { r with output := some target, append := false }
  | .append => { r with output := some target, append := true }

/-- The redirections of operators and operands, or the first operator whose operand is blank. -/
def gather (r : Redirects) : List (Operator × Text) → Except RedirectError Redirects
  | [] => .ok r
  | (op, operand) :: rest =>
    if (Text.trim operand).isEmpty then .error (.missingTarget op)
    else gather (r.put op (Text.trim operand)) rest

end Redirects

/-- The command text of a segment and its redirections. -/
def splitRedirects (segment : Text) : Except RedirectError (Text × Redirects) :=
  let (command, operands) := Redirects.pieces segment
  match Redirects.firstDuplicate? false false (operands.map Prod.fst) with
  | some op => .error (.duplicate op)
  | none => (Redirects.gather {} operands).map (command, ·)

end LineShell

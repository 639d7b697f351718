import LineShell.SearchPath
import LineShell.Similarity

/-!
# Suggestions for a command that was not found

The names that a command could have been are those of the built-in commands and of the entries of
the directories on the search path. The best three that are similar enough are offered, the more
similar first and equally similar ones in the order of their names.

The ranking works for any scale of scores; the shell uses Jaro–Winkler similarities from 0.85 on.
-/

namespace LineShell

/-- A name that is offered, with its score. -/
structure Suggestion (α : Type) where
  name : Text
  score : α
  deriving Repr

namespace Suggestion

/-- The names of the entries that are texts. -/
def entryTexts : List EntryName → List Text
  | [] => []
  | .text name :: rest => name :: entryTexts rest
  | .bytes _ :: rest => entryTexts rest

/-- The names in a directory; none if it cannot be listed. -/
def namesIn (listing : Listing) (directory : Text) : List Text :=
  match listing directory with
  | .ok entries => entryTexts entries
  | .error _ => []

/-- The names that a command could have been, each once. -/
def candidates (listing : Listing) (path : Option Text) : List Text :=
  (Builtin.all.map Builtin.name
    ++ ((path.map SearchPath.directories).getD []).flatMap (namesIn listing)).eraseDups

section Ranking

variable {α : Type} [LE α] [DecidableLE α] [LT α] [DecidableLT α]

/-- Whether `a` is offered no later than `b`. -/
def precedes (a b : Suggestion α) : Bool :=
  if b.score < a.score then true
  else if a.score < b.score then false
  else a.name.atMost b.name

/-- How many names are offered at most. -/
def limit : Nat := 3

/-- The best of the names other than `input`, by their scores, of which each has to reach
`threshold`. -/
def rank (score : Text → α) (threshold : α) (input : Text) (names : List Text) :
    List (Suggestion α) :=
  let scored := (names.filter (· != input)).map fun name => ⟨name, score name⟩
  ((scored.filter fun s => decide (threshold ≤ s.score)).mergeSort precedes).take limit

/-- The names offered in place of `input`, by their scores. -/
def suggestBy (score : Text → α) (threshold : α) (listing : Listing) (input : Text)
    (path : Option Text) : List (Suggestion α) :=
  rank score threshold input (candidates listing path)

end Ranking

/-- The least similarity of a name that is offered. -/
def threshold : Float := 0.85

/-- A similarity in percent, rounded to the nearest whole number with halves away from zero, and
brought into the range of 32 bits. -/
def percent (score : Float) : Nat :=
  (score * 100.0).round.toUInt32.toNat

/-- The words for one name that is offered. -/
def line (s : Suggestion Float) : String :=
  s!"\n  {String.ofList s.name} ({percent s.score}%)"

/-- The words for the names that are offered, if there are any. -/
def message? : List (Suggestion Float) → Option String
  | [] => none
  | suggestions => some (suggestions.foldl (fun text s => text ++ s.line) "Did you mean?")

end Suggestion

/-- The names offered in place of the command `input`. -/
def suggest (listing : Listing) (input : Text) (path : Option Text) : List (Suggestion Float) :=
  Suggestion.suggestBy (Similarity.jaroWinkler · input) Suggestion.threshold listing input path

end LineShell

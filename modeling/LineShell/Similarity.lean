import LineShell.Text.Basic

/-!
# Similarity of names

The Jaro similarity of two texts counts their common characters: a character of the first is matched
with the first equal and still free character of the second that is not too far away. The Winkler
variant raises a similarity above 0.7 for a common beginning of up to four characters. All
arithmetic is on double-precision numbers, in the order written here.
-/

namespace LineShell

namespace Similarity

/-- Marks the first free `c` among `marked`, whose first entry has index `index`, at an index from
`low` up to but not including `high`. -/
def claim (c : Char) (low high : Nat) : Nat → List (Char × Bool) → Option (List (Char × Bool))
  | _, [] => none
  | index, (d, taken) :: rest =>
    if high ≤ index then none
    else if low ≤ index ∧ c = d ∧ taken = false then some ((d, true) :: rest)
    else (claim c low high (index + 1) rest).map ((d, taken) :: ·)

/-- The characters of the first text, from index `index` on, that are matched, and the second text
with its matched characters marked. -/
def pair (range : Nat) : Nat → Text → List (Char × Bool) → Text × List (Char × Bool)
  | _, [], marked => ([], marked)
  | index, c :: rest, marked =>
    match claim c (index - range) (index + range + 1) 0 marked with
    | some marked =>
      let (matched, marked) := pair range (index + 1) rest marked
      (c :: matched, marked)
    | none => pair range (index + 1) rest marked

/-- The matched characters of two texts, each in its own order. -/
def common (a b : Text) : Text × Text :=
  let range := max a.length b.length / 2 - 1
  let (matched, marked) := pair range 0 a (b.map (·, false))
  (matched, (marked.filter (·.2)).map Prod.fst)

/-- Half the number of places where the matched characters differ, rounded down. -/
def transpositions (a b : Text) : Nat :=
  ((a.zip b).countP fun (c, d) => c != d) / 2

/-- The Jaro similarity of two texts. -/
def jaro (a b : Text) : Float :=
  if a.isEmpty && b.isEmpty then 1.0
  else if a.isEmpty || b.isEmpty then 0.0
  else
    let (ofA, ofB) := common a b
    let matched := ofA.length
    if matched = 0 then 0.0
    else
      (matched.toFloat / a.length.toFloat + matched.toFloat / b.length.toFloat
        + (matched - transpositions ofA ofB).toFloat / matched.toFloat) / 3.0

/-- The number of characters, at most four, that two texts both begin with. -/
def commonStart (a b : Text) : Nat :=
  (((a.take 4).zip b).takeWhile fun (c, d) => c == d).length

/-- The Jaro–Winkler similarity of two texts. -/
def jaroWinkler (a b : Text) : Float :=
  let similarity := jaro a b
  if 0.7 < similarity then
    similarity + 0.1 * (commonStart a b).toFloat * (1.0 - similarity)
  else similarity

end Similarity

end LineShell

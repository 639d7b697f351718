import LineShell.Text.Basic

/-!
# Fragments of a line

A line is cut, left to right, into literal text and variable references:

- `${NAME}` is a braced reference; its name is everything up to the next `}`;
- `$NAME` is a bare reference; its name is the longest run of letters and underscores after `$`,
  and a `$` before anything else is a bare reference with the empty name;
- `${` without a later `}` is unterminated and takes the rest of the line;
- text between references is literal.

`Fragment.cut` makes the fragments and `Fragment.source` writes one back.
-/

namespace LineShell

/-- A character that may stand in a variable's name: an ASCII letter or an underscore. -/
def isNameChar (c : Char) : Bool :=
  c.isAlpha || c == '_'

/-- A text that may be assigned to: one or more name characters. -/
def isVariableName (name : Text) : Bool :=
  !name.isEmpty && name.all isNameChar

/-- A piece of a line. -/
inductive Fragment where
  /-- Literal text. -/
  | text (content : Text)
  /-- `$` and a run of name characters, possibly empty. -/
  | bare (name : Text)
  /-- `${`, a name and `}`. -/
  | braced (name : Text)
  /-- `${` and the rest of the line, in which no `}` follows. -/
  | unterminated (rest : Text)
  deriving DecidableEq, Repr

namespace Fragment

/-- The text that a fragment was cut from. -/
def source : Fragment → Text
  | text content => content
  | bare name => '$' :: name
  | braced name => '$' :: '{' :: name ++ ['}']
  | unterminated rest => '$' :: '{' :: rest

/-- The first fragment of the nonempty line `c :: line`, and the rest of the line. -/
def first (c : Char) (line : Text) : Fragment × Text :=
  if c = '$' then
    match line with
    | '{' :: rest =>
      match Text.cutAt '}' rest with
      | (name, some after) => (braced name, after)
      | (_, none) => (unterminated rest, [])
    | _ => (bare (line.takeWhile isNameChar), line.dropWhile isNameChar)
  else (text (c :: line.takeWhile (· != '$')), line.dropWhile (· != '$'))

/-- What is behind a cut is shorter than the text, so cutting on comes to an end. -/
theorem length_of_cut_at_some {stop : Char} {t after : Text}
    (h : (Text.cutAt stop t).2 = some after) : after.length < t.length := by
  induction t with
  | nil => simp [Text.cutAt] at h
  | cons c t ih =>
    by_cases hc : c = stop
    · simp [Text.cutAt, hc] at h
      simp [← h]
    · simp only [Text.cutAt, hc, if_false] at h
      have := ih h
      simp; omega

/-- What is left after the first fragment is shorter than the line. -/
theorem length_first_snd_le (c : Char) (line : Text) : (first c line).2.length ≤ line.length := by
  unfold first
  split
  · split
    · split
      · rename_i h
        have := length_of_cut_at_some (congrArg Prod.snd h)
        simp; omega
      · simp
    · exact (List.dropWhile_sublist _).length_le
  · exact (List.dropWhile_sublist _).length_le

/-- The fragments of a line, in order. -/
def cut : Text → List Fragment
  | [] => []
  | c :: line => (first c line).1 :: cut (first c line).2
termination_by line => line.length
decreasing_by
  have := length_first_snd_le c line
  simp; omega

/-- The fragments of a line, each with the number of bytes before it. -/
def positions : Nat → List Fragment → List (Nat × Fragment)
  | _, [] => []
  | start, f :: rest => (start, f) :: positions (start + Text.byteLength f.source) rest

end Fragment

end LineShell

/-!
# Text

A line, a word or a path is a `Text`: its characters in order. This module holds the measures and
cuts that every reader of a line needs. Only the space character counts as blank; tabs and other
white space are ordinary characters.
-/

namespace LineShell

/-- A piece of text, as its characters in order. -/
abbrev Text := List Char

namespace Text

/-- The number of bytes that `t` takes in UTF-8. -/
def byteLength (t : Text) : Nat :=
  t.foldr (fun c n => c.utf8Size + n) 0

/-- The UTF-8 bytes of `t`. -/
def utf8 (t : Text) : ByteArray :=
  (String.ofList t).toUTF8

/-- The text whose UTF-8 bytes are `bytes`, if there is one. -/
def ofUtf8? (bytes : ByteArray) : Option Text :=
  (String.fromUTF8? bytes).map String.toList

/-- `t` without the spaces at its start. -/
def trimStart (t : Text) : Text :=
  t.dropWhile (· == ' ')

/-- `t` without the spaces at its end. -/
def trimEnd : Text → Text
  | [] => []
  | c :: t =>
    match trimEnd t with
    | [] => if c = ' ' then [] else [c]
    | d :: r => c :: d :: r

/-- `t` without the spaces at either end. -/
def trim (t : Text) : Text :=
  trimEnd (trimStart t)

/-- The words of `t`: its longest runs without a space. -/
def words (t : Text) : List Text :=
  (t.splitOn ' ').filter (!·.isEmpty)

/-- The text before the first `stop`, and the text after it if there is one. -/
def cutAt (stop : Char) : Text → Text × Option Text
  | [] => ([], none)
  | c :: t =>
    if c = stop then ([], some t)
    else
      let (before, after) := cutAt stop t
      (c :: before, after)

/-- Whether `a` is `b` or comes before it, by the codes of their characters. -/
def atMost (a b : Text) : Bool :=
  (List.decidableLE a b).decide

/-- The number that decimal digits write. -/
def decimalValue (digits : Text) : Nat :=
  digits.foldl (fun n c => 10 * n + (c.toNat - '0'.toNat)) 0

/-- The number that `t` writes, if it is one or more decimal digits. -/
def decimal? (t : Text) : Option Nat :=
  if !t.isEmpty && t.all Char.isDigit then some (decimalValue t) else none

end Text

end LineShell

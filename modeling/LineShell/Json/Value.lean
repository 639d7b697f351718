import LineShell.Text.Basic

/-!
# JSON values and their compact text

`Json.render` writes a value on one line without blanks. In a string, `"` and `\` are escaped by a
backslash, the five control characters with a letter of their own by that letter, and the other
characters below U+0020 by four hexadecimal digits; all else is written as it is.
-/

namespace LineShell

/-- A JSON value. Numbers are kept as written. A string or key whose escapes do not spell a text,
because half of a surrogate pair stands alone, has no content. -/
inductive Json where
  | null
  | bool (value : Bool)
  | number (lexeme : Text)
  | string (content : Option Text)
  | array (items : List Json)
  | object (members : List (Option Text × Json))

namespace Json

/-- A hexadecimal digit, in lower case. -/
def hexDigit (n : Nat) : Char :=
  if n < 10 then Char.ofNat ('0'.toNat + n) else Char.ofNat ('a'.toNat + (n - 10))

/-- How a character is written inside a string. -/
def escape (c : Char) : Text :=
  if c = '"' then ['\\', '"']
  else if c = '\\' then ['\\', '\\']
  else if c = '\x08' then ['\\', 'b']
  else if c = '\t' then ['\\', 't']
  else if c = '\n' then ['\\', 'n']
  else if c = '\x0c' then ['\\', 'f']
  else if c = '\r' then ['\\', 'r']
  else if c.toNat < 0x20 then
    ['\\', 'u', '0', '0', hexDigit (c.toNat / 16), hexDigit (c.toNat % 16)]
  else [c]

/-- A text as a string. -/
def quote (t : Text) : Text :=
  '"' :: t.flatMap escape ++ ['"']

/-- A whole number as a value. -/
def ofInt (n : Int) : Json :=
  number (toString n).toList

mutual

/-- The compact text of a value. -/
def render : Json → Text
  | null => "null".toList
  | bool true => "true".toList
  | bool false => "false".toList
  | number lexeme => lexeme
  | string content => quote (content.getD [])
  | array items => '[' :: renderItems items ++ [']']
  | object members => '{' :: renderMembers members ++ ['}']

/-- The texts of an array's items, with commas between them. -/
def renderItems : List Json → Text
  | [] => []
  | [item] => render item
  | item :: rest => render item ++ ',' :: renderItems rest

/-- The texts of an object's members, with commas between them. -/
def renderMembers : List (Option Text × Json) → Text
  | [] => []
  | [(key, value)] => quote (key.getD []) ++ ':' :: render value
  | (key, value) :: rest => quote (key.getD []) ++ ':' :: render value ++ ',' :: renderMembers rest

end

end Json

end LineShell

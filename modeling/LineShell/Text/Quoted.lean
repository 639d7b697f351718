import LineShell.Text.Unprintable

/-!
# Quoted text

A text in double quotes, in which everything that would not show is escaped: NUL, tab, line feed and
carriage return by a letter, quotes and backslashes by a backslash, and every other character that
is not printable by its code in braces.
-/

namespace LineShell.Text

/-- The hexadecimal digits of a character's code, in lower case and without leading zeros. -/
def hexCode (c : Char) : Text :=
  Nat.toDigits 16 c.toNat

/-- How a character is written in a quoted text. -/
def escapeQuoted (c : Char) : Text :=
  if c = '\x00' then ['\\', '0']
  else if c = '\t' then ['\\', 't']
  else if c = '\n' then ['\\', 'n']
  else if c = '\r' then ['\\', 'r']
  else if c = '"' then ['\\', '"']
  else if c = '\\' then ['\\', '\\']
  else if isUnprintable c then '\\' :: 'u' :: '{' :: hexCode c ++ ['}']
  else [c]

/-- `t` in quotes. -/
def quoted (t : Text) : Text :=
  '"' :: t.flatMap escapeQuoted ++ ['"']

end LineShell.Text

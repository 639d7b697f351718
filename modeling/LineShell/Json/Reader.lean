import LineShell.Json.Value

/-!
# Reading JSON

`Json.read?` reads a text that holds one value and nothing else but blanks (space, tab, line feed
and carriage return) around its parts. Strings are read in two steps: `unescape` undoes the escapes,
and `assemble` joins surrogate pairs.
-/

namespace LineShell

namespace Json

/-- A character that may stand between the parts of a value. -/
def isBlank (c : Char) : Bool :=
  c == ' ' || c == '\t' || c == '\n' || c == '\r'

/-- `t` without the blanks at its start. -/
def skipBlanks (t : Text) : Text :=
  t.dropWhile isBlank

/-- A unit of a string's content: a character, or half of a surrogate pair. -/
inductive StringUnit where
  | char (c : Char)
  | half (code : Nat)
  deriving DecidableEq, Repr

/-- The value of a hexadecimal digit, in either case. -/
def hexValue? (c : Char) : Option Nat :=
  if '0' ≤ c ∧ c ≤ '9' then some (c.toNat - '0'.toNat)
  else if 'a' ≤ c ∧ c ≤ 'f' then some (c.toNat - 'a'.toNat + 10)
  else if 'A' ≤ c ∧ c ≤ 'F' then some (c.toNat - 'A'.toNat + 10)
  else none

/-- The number that four hexadecimal digits write. -/
def hexValue4? (a b c d : Char) : Option Nat := do
  let a ← hexValue? a
  let b ← hexValue? b
  let c ← hexValue? c
  let d ← hexValue? d
  return ((a * 16 + b) * 16 + c) * 16 + d

/-- The unit that a sixteen-bit code stands for. -/
def StringUnit.ofCode (code : Nat) : StringUnit :=
  if 0xD800 ≤ code ∧ code ≤ 0xDFFF then .half code else .char (Char.ofNat code)

/-- The character that a letter after a backslash stands for. -/
def escaped? (c : Char) : Option Char :=
  if c = '"' then some '"'
  else if c = '\\' then some '\\'
  else if c = '/' then some '/'
  else if c = 'b' then some '\x08'
  else if c = 'f' then some '\x0c'
  else if c = 'n' then some '\n'
  else if c = 'r' then some '\r'
  else if c = 't' then some '\t'
  else none

/-- The content of a string whose opening quote has been read, and the text after its closing
quote. -/
def unescape : Text → Option (List StringUnit × Text)
  | [] => none
  | '"' :: rest => some ([], rest)
  | '\\' :: 'u' :: a :: b :: c :: d :: rest => do
    let code ← hexValue4? a b c d
    let (units, rest) ← unescape rest
    return (.ofCode code :: units, rest)
  | '\\' :: e :: rest => do
    let c ← escaped? e
    let (units, rest) ← unescape rest
    return (.char c :: units, rest)
  | c :: rest =>
    if c.toNat < 0x20 ∨ c = '\\' then none
    else do
      let (units, rest) ← unescape rest
      return (.char c :: units, rest)

/-- The text of a string's content, unless half of a surrogate pair stands alone. -/
def assemble : List StringUnit → Option Text
  | [] => some []
  | .char c :: rest => (assemble rest).map (c :: ·)
  | .half high :: .half low :: rest =>
    if high < 0xDC00 ∧ 0xDC00 ≤ low then
      (assemble rest).map (Char.ofNat (0x10000 + (high - 0xD800) * 0x400 + (low - 0xDC00)) :: ·)
    else none
  | .half _ :: _ => none

/-- A character that a number is written with. -/
def isNumberChar (c : Char) : Bool :=
  c.isDigit || c == '-' || c == '+' || c == '.' || c == 'e' || c == 'E'

/-- `t` without the digits at its start, of which there has to be one. -/
def dropDigits? : Text → Option Text
  | c :: t => if c.isDigit then some (t.dropWhile Char.isDigit) else none
  | [] => none

/-- `t` without the whole number at its start, which has no leading zero. -/
def dropWhole? : Text → Option Text
  | '0' :: t => some t
  | t => dropDigits? t

/-- `t` without the fraction at its start, if it starts with a point. -/
def dropFraction? : Text → Option Text
  | '.' :: t => dropDigits? t
  | t => some t

/-- `t` without the exponent at its start, if it starts with `e` or `E`. -/
def dropExponent? : Text → Option Text
  | c :: t =>
    if c = 'e' ∨ c = 'E' then
      match t with
      | '+' :: t | '-' :: t => dropDigits? t
      | t => dropDigits? t
    else some (c :: t)
  | [] => some []

/-- Whether a text is a number: a sign or none, a whole number, a fraction or none, and an exponent
or none. -/
def isNumber (t : Text) : Bool :=
  let unsigned := match t with
    | '-' :: t => t
    | t => t
  (do dropExponent? (← dropFraction? (← dropWhole? unsigned))) == some []

/-- The whole number that a lexeme without fraction and exponent writes; `-0` is none. -/
def lexemeInt? (lexeme : Text) : Option Int :=
  match lexeme with
  | '-' :: digits =>
    match Text.decimal? digits with
    | some (n + 1) => some (-(n + 1 : Nat))
    | _ => none
  | digits => (Text.decimal? digits).map (·)

mutual

/-- The value at the start of `t`, and the text after it. At most `fuel` values, items and members
are entered. -/
def readValue : Nat → Text → Option (Json × Text)
  | 0, _ => none
  | fuel + 1, t =>
    match skipBlanks t with
    | 'n' :: 'u' :: 'l' :: 'l' :: rest => some (null, rest)
    | 't' :: 'r' :: 'u' :: 'e' :: rest => some (bool true, rest)
    | 'f' :: 'a' :: 'l' :: 's' :: 'e' :: rest => some (bool false, rest)
    | '"' :: rest => do
      let (units, rest) ← unescape rest
      return (string (assemble units), rest)
    | '[' :: rest =>
      match skipBlanks rest with
      | ']' :: rest => some (array [], rest)
      | rest => do
        let (items, rest) ← readItems fuel rest
        return (array items, rest)
    | '{' :: rest =>
      match skipBlanks rest with
      | '}' :: rest => some (object [], rest)
      | rest => do
        let (members, rest) ← readMembers fuel rest
        return (object members, rest)
    | rest =>
      let lexeme := rest.takeWhile isNumberChar
      if isNumber lexeme then some (number lexeme, rest.dropWhile isNumberChar) else none

/-- The items of an array from its next one on, and the text after its closing bracket. -/
def readItems : Nat → Text → Option (List Json × Text)
  | 0, _ => none
  | fuel + 1, t => do
    let (item, rest) ← readValue fuel t
    match skipBlanks rest with
    | ']' :: rest => return ([item], rest)
    | ',' :: rest =>
      let (items, rest) ← readItems fuel rest
      return (item :: items, rest)
    | _ => none

/-- The members of an object from its next one on, and the text after its closing brace. -/
def readMembers : Nat → Text → Option (List (Option Text × Json) × Text)
  | 0, _ => none
  | fuel + 1, t =>
    match skipBlanks t with
    | '"' :: rest => do
      let (units, rest) ← unescape rest
      match skipBlanks rest with
      | ':' :: rest =>
        let (value, rest) ← readValue fuel rest
        match skipBlanks rest with
        | '}' :: rest => return ([(assemble units, value)], rest)
        | ',' :: rest =>
          let (members, rest) ← readMembers fuel rest
          return ((assemble units, value) :: members, rest)
        | _ => none
      | _ => none
    | _ => none

end

/-- The value that a text holds, if it holds exactly one. -/
def read? (t : Text) : Option Json :=
  match readValue (2 * t.length + 1) t with
  | some (value, rest) => if (skipBlanks rest).isEmpty then some value else none
  | none => none

end Json

end LineShell

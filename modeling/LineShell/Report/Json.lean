import LineShell.Report
import LineShell.Json.Reader

/-!
# Reports as JSON

A report is written as an object with the members `error_code`, `message`, `exit_code`, `command`
and `location` in this order, of which the last two are left out if absent. Reading takes members in
any order, ignores others, and accepts an array of all five values as well.
-/

namespace LineShell

namespace SourceLocation

/-- A location as JSON. -/
def toJson (l : SourceLocation) : Json :=
  .object [(some "line".toList, .ofInt l.line), (some "filename".toList, .string (some l.file.toList))]

end SourceLocation

namespace Report

/-- A string as JSON. -/
def jsonString (s : String) : Json :=
  .string (some s.toList)

/-- A report as JSON. -/
def toJsonValue (r : Report) : Json :=
  .object <|
    [(some "error_code".toList, jsonString r.code),
      (some "message".toList, jsonString r.message),
      (some "exit_code".toList, .ofInt r.exitCode)]
    ++ (r.command.map fun c => (some "command".toList, jsonString c)).toList
    ++ (r.location.map fun l => (some "location".toList, l.toJson)).toList

/-- The JSON text of a report. -/
def toJson (r : Report) : String :=
  String.ofList (Json.render r.toJsonValue)

/-- A report in the given format. -/
def render (format : ReportFormat) (r : Report) : String :=
  match format with
  | .text => r.toText
  | .json => r.toJson

end Report

namespace Json

/-- The values of a record with the given member names, in their order, each `none` if it is absent.
An object must not name one of them twice; an array must have exactly one value for each. -/
def fields? (names : List String) : Json → Option (List (Option Json))
  | object members =>
    if members.all (·.1.isSome) then
      names.mapM fun name =>
        match members.filter (·.1 == some name.toList) with
        | [] => some none
        | [(_, value)] => some (some value)
        | _ => none
    else none
  | array items => if items.length = names.length then some (items.map some) else none
  | _ => none

/-- The string that a value is. -/
def string? : Json → Option String
  | string (some t) => some (String.ofList t)
  | _ => none

/-- The whole number between `low` and `high` that a value is. -/
def intBetween? (low high : Int) : Json → Option Int
  | number lexeme =>
    match lexemeInt? lexeme with
    | some n => if low ≤ n ∧ n ≤ high then some n else none
    | none => none
  | _ => none

/-- An optional member: absent, null, or what `read` makes of it. -/
def optional? {α : Type} (read : Json → Option α) : Option Json → Option (Option α)
  | none | some null => some none
  | some value => (read value).map some

end Json

namespace SourceLocation

/-- The location that a value describes. -/
def ofJson? (value : Json) : Option SourceLocation := do
  match ← value.fields? ["line", "filename"] with
  | [some line, some file] =>
    let line ← line.intBetween? 0 (Int.pow 2 64 - 1)
    let file ← file.string?
    return ⟨line.toNat, file⟩
  | _ => none

end SourceLocation

namespace Report

/-- The report that a value describes. The exit code has 32 bits. -/
def ofJsonValue? (value : Json) : Option Report := do
  match ← value.fields? ["error_code", "message", "exit_code", "command", "location"] with
  | [some code, some message, some exitCode, command, location] =>
    let code ← code.string?
    let message ← message.string?
    let exitCode ← exitCode.intBetween? (-Int.pow 2 31) (Int.pow 2 31 - 1)
    let command ← Json.optional? Json.string? command
    let location ← Json.optional? SourceLocation.ofJson? location
    return ⟨code, message, exitCode, command, location⟩
  | _ => none

/-- The report that a JSON text describes. -/
def ofJson? (text : String) : Option Report := do
  ofJsonValue? (← Json.read? text.toList)

end Report

end LineShell

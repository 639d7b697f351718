import LineShell.Line

/-!
# Error reports

Every error that the shell shows is a `Report`. It is written either as one line of text or as one
JSON object (`LineShell.Report.Json`), as a `ReportFormat` says.
-/

namespace LineShell

/-- The name that the shell gives itself in its messages. -/
def shellName : String := "pipesh"

/-- How reports are written. -/
inductive ReportFormat where
  | text
  | json
  deriving DecidableEq, Repr

/-- `json` in any case asks for JSON; anything else, and nothing, for text. -/
def ReportFormat.ofValue (value : Option Text) : ReportFormat :=
  match value with
  | some value => if value.map Char.toLower == ['j', 's', 'o', 'n'] then json else text
  | none => text

/-- A line of a file, counted from one. -/
structure SourceLocation where
  line : Nat
  file : String
  deriving DecidableEq, Repr

/-- An error as it is shown. -/
structure Report where
  /-- The kind of error. -/
  code : String
  message : String
  /-- The status that a process ending in this error would exit with. -/
  exitCode : Int
  /-- The command that the error is about. -/
  command : Option String := none
  /-- Where in a script the error arose. -/
  location : Option SourceLocation := none
  deriving DecidableEq, Repr

namespace Report

/-- A report on the command line of the shell itself. -/
def usage (message : String) : Report :=
  { code := "USAGE_ERROR", message, exitCode := 1 }

/-- A report on input and output, and on a run that cannot go on. -/
def ofIo (message : String) : Report :=
  { code := "IO_ERROR", message, exitCode := 1 }

/-- The report on a line that cannot be read. -/
def ofParseError (e : ParseError) : Report :=
  match e with
  | .resolve cause =>
    { code := "RESOLUTION_ERROR", message := e.message, exitCode := 127,
      command := some (String.ofList cause.name) }
  | _ => { code := "PARSE_ERROR", message := e.message, exitCode := 2 }

/-- The report with a location, if one is given. -/
def at? (r : Report) (location : Option SourceLocation) : Report :=
  match location with
  | some location => { r with location := some location }
  | none => r

/-- The report as text: the shell's name, the location if there is one, and the message. -/
def toText (r : Report) : String :=
  match r.location with
  | some location => s!"{shellName}: {location.file}:{location.line}: {r.message}"
  | none => s!"{shellName}: {r.message}"

end Report

end LineShell

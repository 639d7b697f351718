import LineShell.Expansion
import LineShell.Redirect
import LineShell.SearchPath

/-!
# Reading a line

A line is blank, an assignment or a pipeline. `parseLine` decides which:

1. without the spaces around it, a line that is empty or starts with `#` is blank;
2. variable references are replaced (`substitute`);
3. a line with a `=` anywhere is an assignment, whose value ends at the first `#`;
4. a `#` at the start or after a space begins a comment, which is dropped;
5. what is left is a pipeline: segments between `|`, each with redirections and words, the first of
   which is resolved as the command's name.

Findings that do not stop the reading are returned beside the result as warnings.
-/

namespace LineShell

/-- What a line says. -/
inductive ParsedLine where
  | empty
  | assignment (name value : Text)
  | pipeline (pipeline : Pipeline)
  deriving DecidableEq, Repr

/-- Why a line cannot be read. -/
inductive ParseError where
  /-- Nothing stands before the `=`. -/
  | assignmentWithoutName
  /-- What stands before the `=` is not a variable's name. -/
  | invalidVariableName (name : Text)
  /-- A `${` has no `}`. -/
  | unterminatedBrace (cause : UnterminatedBrace)
  /-- The segment with this number, counted from one, has no command. -/
  | emptyCommand (segment : Nat)
  /-- A segment's redirections cannot be read. -/
  | redirect (cause : RedirectError)
  /-- A command's name leads to no program. -/
  | resolve (cause : ResolveError)
  deriving DecidableEq, Repr

namespace ParseError

/-- The words for a line that cannot be read. -/
def message : ParseError → String
  | assignmentWithoutName => "Assignment cannot start with '=' character"
  | invalidVariableName name =>
    "Variable names must only contain alphabetic characters and '_' chars. Got: "
      ++ String.ofList name
  | unterminatedBrace cause => cause.message
  | emptyCommand segment => s!"Empty command in pipeline stage {segment}"
  | redirect cause => cause.message
  | resolve cause => cause.message

/-- The command that the error is about, if it is about one. -/
def command? : ParseError → Option Text
  | resolve cause => some cause.name
  | _ => none

end ParseError

/-- A finding that does not stop the reading of a line. -/
inductive Warning where
  /-- A reference names no variable and was replaced by nothing. -/
  | unknownVariable (name : Text)
  /-- A directory on the search path cannot be listed. -/
  | skippedEntry (entry : SkippedEntry)
  deriving DecidableEq, Repr

/-- The words for a warning. -/
def Warning.message : Warning → String
  | unknownVariable name => s!"Could not find variable: <{String.ofList name}>"
  | skippedEntry entry =>
    s!"PATH directory {String.ofList entry.directory} invalid: {entry.reason.message}"

/-- `line` up to its comment. A `#` begins one at the start of the line or after a space;
`afterSpace` says whether this is such a place. -/
def dropComment (afterSpace : Bool) : Text → Text
  | [] => []
  | c :: line => if afterSpace && c == '#' then [] else c :: dropComment (c == ' ') line

/-- `line` without its comment. -/
def stripComment (line : Text) : Text :=
  dropComment true line

/-- The segments of a pipeline, without the spaces around them. -/
def splitPipeline (line : Text) : List Text :=
  (line.splitOn '|').map Text.trim

/-- The assignment of a line with a `=` in it. -/
def parseAssignment (line : Text) : Except ParseError ParsedLine :=
  let (before, after) := Text.cutAt '=' line
  let name := Text.trim before
  if name.isEmpty then .error .assignmentWithoutName
  else if isVariableName name then
    .ok (.assignment name (Text.trim (Text.cutAt '#' (after.getD [])).1))
  else .error (.invalidVariableName name)

/-- The stage of the segment with the given number, and the warnings of its look-up. -/
def parseStage (listing : Listing) (path : Option Text) (number : Nat) (segment : Text) :
    List Warning × Except ParseError Stage :=
  if segment.isEmpty then ([], .error (.emptyCommand number))
  else
    match splitRedirects segment with
    | .error cause => ([], .error (.redirect cause))
    | .ok (command, redirects) =>
      match Text.words command with
      | [] => ([], .error (.emptyCommand number))
      | name :: arguments =>
        match resolve listing name path with
        | .ok found =>
          (found.skipped.map .skippedEntry, .ok ⟨found.program, name :: arguments, redirects⟩)
        | .error cause => (cause.skipped.map .skippedEntry, .error (.resolve cause))

/-- The stages of the segments, numbered from `number`, up to the first that cannot be read. -/
def parseStages (listing : Listing) (path : Option Text) :
    Nat → List Text → List Warning × Except ParseError (List Stage)
  | _, [] => ([], .ok [])
  | number, segment :: rest =>
    match parseStage listing path number segment with
    | (warnings, .error e) => (warnings, .error e)
    | (warnings, .ok stage) =>
      let (more, stages) := parseStages listing path (number + 1) rest
      (warnings ++ more, stages.map (stage :: ·))

/-- The reading of a line whose references are replaced. -/
def parseExpanded (listing : Listing) (path : Option Text) (line : Text) :
    List Warning × Except ParseError ParsedLine :=
  if line.contains '=' then ([], parseAssignment line)
  else
    let line := Text.trim (stripComment line)
    if line.isEmpty then ([], .ok .empty)
    else
      let (warnings, stages) := parseStages listing path 1 (splitPipeline line)
      (warnings, stages.map fun stages => .pipeline ⟨stages⟩)

/-- The reading of a line, and the warnings that it gives rise to, in order. -/
def parseLine (listing : Listing) (store : Store) (line : Text) :
    List Warning × Except ParseError ParsedLine :=
  let line := Text.trim line
  if line.isEmpty || line.head? == some '#' then ([], .ok .empty)
  else
    match substitute store line with
    | .error cause => ([], .error (.unterminatedBrace cause))
    | .ok expansion =>
      let (warnings, parsed) := parseExpanded listing store.path? (Text.trim expansion.line)
      (expansion.unresolved.map .unknownVariable ++ warnings, parsed)

/-- A reader of lines that holds the warnings of its lines until they are taken. -/
structure LineReader where
  /-- The warnings held, oldest first. -/
  warnings : List Warning := []

namespace LineReader

/-- Reads a line, and adds its warnings to those held. -/
def read (reader : LineReader) (listing : Listing) (store : Store) (line : Text) :
    Except ParseError ParsedLine × LineReader :=
  let (warnings, parsed) := parseLine listing store line
  (parsed, ⟨reader.warnings ++ warnings⟩)

/-- The warnings held, and the reader without them. -/
def takeWarnings (reader : LineReader) : List Warning × LineReader :=
  (reader.warnings, {})

end LineReader

end LineShell

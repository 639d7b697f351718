import LineShell.Report
import LineShell.Text.Path

/-!
# The command line of the shell

The arguments are read from left to right: `-i` with the argument after it, and `--init-file=` with
a file, name the init file; `-h` and `--help` ask for help; any other argument that starts with `-`
is refused, unless it is just `-`; every other argument names the script. Of several files of a kind
the last one counts. Without an init file on the command line the one in the home directory is used,
if there is a home directory.

The system hands the command line over as words of bytes, the first of which is the name that the
shell was called by. A word is decoded when its turn comes, and one that is not UTF-8 makes the
shell panic; words behind the place where the reading ends are never looked at.
-/

namespace LineShell

/-- What the shell is started with besides its arguments. -/
structure Environment where
  /-- The environment variables. -/
  «variables» : Store := .empty
  /-- The home directory of the user, if it is known. -/
  userHome : Option Text

namespace Environment

/-- The value of an environment variable. -/
def get? (env : Environment) (name : String) : Option Text :=
  env.variables.get? name.toList

/-- The home directory: the value of `HOME` unless it is unset or empty. -/
def home? (env : Environment) : Option Text :=
  match env.get? "HOME" with
  | none | some [] => env.userHome
  | some home => some home

/-- The name of the init file in the home directory. -/
def initFileName : Text := ".pipesh_init".toList

/-- The init file that is used if no other is named. -/
def initFile? (env : Environment) : Option Text :=
  env.home?.map (Path.join · initFileName)

/-- The variable that says how reports are written. -/
def formatVariable : String := "PIPESH_ERROR_FORMAT"

/-- The variable that filters the log. -/
def logVariable : String := "PIPESH_LOG"

/-- How reports are written. -/
def format (env : Environment) : ReportFormat :=
  .ofValue (env.get? formatVariable)

end Environment

/-- What the command line asks for. -/
structure Settings where
  /-- The init file. There is none if none is named and the home directory is not known. -/
  initFile : Option Text
  /-- The init file was named on the command line. -/
  initExplicit : Bool
  /-- The script to run in place of the standard input. -/
  script : Option Text
  format : ReportFormat
  deriving DecidableEq, Repr

/-- What the shell is called for. -/
inductive Invocation where
  | help
  | run (settings : Settings)
  deriving DecidableEq, Repr

/-- Why a command line is refused. -/
inductive UsageError where
  /-- No argument follows `-i`. -/
  | missingInitFile
  /-- Nothing follows `--init-file=`. -/
  | emptyInitFile
  | unknownOption (argument : Text)
  deriving DecidableEq, Repr

/-- The words for a command line that is refused. -/
def UsageError.message : UsageError → String
  | missingInitFile => "Missing init file path after argument: '-i'"
  | emptyInitFile => "Missing init file path after '--init-file='"
  | unknownOption argument => s!"Unknown option: '{String.ofList argument}'"

namespace Invocation

/-- The option before an init file. -/
def initOption : Text := ['-', 'i']

/-- The option that holds an init file. -/
def initPrefix : Text := "--init-file=".toList

/-- The options that ask for help. -/
def helpOptions : List Text := [['-', 'h'], "--help".toList]

/-- What one argument says by itself. -/
inductive Argument where
  | help
  /-- The next argument names the init file. -/
  | initFollows
  | initFile (path : Text)
  | script (path : Text)
  | refused (error : UsageError)
  deriving DecidableEq, Repr

/-- What an argument says. -/
def classify (argument : Text) : Argument :=
  if argument ∈ helpOptions then .help
  else if argument = initOption then .initFollows
  else if initPrefix.isPrefixOf argument then
    match argument.drop initPrefix.length with
    | [] => .refused .emptyInitFile
    | path => .initFile path
  else if argument.head? = some '-' ∧ argument ≠ ['-'] then .refused (.unknownOption argument)
  else .script argument

/-- Reads arguments, of which earlier ones named the files `initFile` and `script`. What an argument
says is asked of `next` when its turn comes. -/
def parseFrom {α : Type} {m : Type → Type} [Monad m] (next : α → m Text) (env : Environment)
    (initFile script : Option Text) : List α → m (Except UsageError Invocation)
  | [] => pure (.ok (.run ⟨initFile <|> env.initFile?, initFile.isSome, script, env.format⟩))
  | argument :: rest => do
    match classify (← next argument) with
    | .help => pure (.ok .help)
    | .initFollows =>
      match rest with
      | [] => pure (.error .missingInitFile)
      | path :: rest => do
        let path ← next path
        parseFrom next env (some path) script rest
    | .initFile path => parseFrom next env (some path) script rest
    | .script path => parseFrom next env initFile (some path) rest
    | .refused e => pure (.error e)

/-- Reads arguments that are texts. -/
def parse (env : Environment) (arguments : List Text) : Except UsageError Invocation :=
  Id.run (parseFrom pure env none none arguments)

/-- The text that a word of the command line holds, or the word itself if it is not UTF-8. -/
def decode (word : List UInt8) : Except (List UInt8) Text :=
  match Text.ofUtf8? ⟨word.toArray⟩ with
  | some text => .ok text
  | none => .error word

/-- Reads a command line. The name of the shell is passed over, but decoded all the same. -/
def parseWords (env : Environment) : List (List UInt8) →
    Except (List UInt8) (Except UsageError Invocation)
  | [] => .ok (parse env [])
  | name :: arguments => do
    let _ ← decode name
    parseFrom decode env none none arguments

/-- The version of the shell. -/
def version : String := "0.1.0"

/-- The text on how the shell is called. -/
def helpText : String :=
  String.intercalate "\n"
    [s!"{shellName} v{version}",
      s!"Usage: {shellName} [OPTION]... [SCRIPT-FILE]",
      "Options:",
      "  -h, --help                 Display this help message",
      "  -i FILE, --init-file=FILE  Use a specific init file. Default is ~/"
        ++ String.ofList Environment.initFileName,
      s!"If no script file is given, {shellName} reads commands from standard input,",
      "interactively when it is a terminal.",
      "",
      "Environment:",
      s!"  {Environment.logVariable}        Log filter (default: {shellName}=warn)",
      s!"  {Environment.formatVariable}  Set to 'json' for JSON error reports"]

end Invocation

end LineShell

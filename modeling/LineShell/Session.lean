import LineShell.Execution
import LineShell.Interrupt
import LineShell.Report.Json
import LineShell.Suggestion

/-!
# Sessions

A `Session` is a shell between two lines: its variables, its context, the system under it, and a
diary of everything that was shown. `interpretLine` runs one line, and `runLine` also reports what
goes wrong with it. `stdout` and `stderr` say what the diary looks like on the two output channels.
-/

namespace LineShell

/-- A remark on how the shell starts. -/
inductive Remark where
  /-- No init file is named, and there is no home directory with a default one. -/
  | homeUnknown
  /-- The default init file does not exist. -/
  | initFileMissing (path : Text)
  /-- There is no search path. -/
  | pathUndefined
  deriving DecidableEq, Repr

/-- The words for a remark. -/
def Remark.message : Remark → String
  | homeUnknown => "no home directory, skipping init file"
  | initFileMissing path =>
    s!"init file {String.ofList path} not found, using PATH from the environment"
  | pathUndefined => "PATH is not defined; only commands given by path will run"

/-- Something that was shown. -/
inductive Entry where
  | warning (warning : Warning)
  | remark (remark : Remark)
  | report (report : Report)
  /-- Names that a command could have been. -/
  | offer (suggestions : List (Suggestion Float))
  /-- A pipeline was run: its result, what the shell did for it, and what its children wrote. -/
  | ran (pipeline : Pipeline) (result : PipelineResult) (acts : List Act) (output : Output)
  /-- The text on how the shell is called. -/
  | help (text : String)
  /-- The terminal failed to read a line. -/
  | unreadLine (cause : IoError)

namespace Act

/-- What an act makes the shell complain of. -/
def complaint? : Act → Option CdError
  | moved (.error e) => some e
  | _ => none

end Act

namespace Entry

/-- A line of text as bytes. -/
def line (text : String) : ByteArray :=
  (text ++ "\n").toUTF8

/-- The bytes of several pieces, one after the other. -/
def concat (pieces : List ByteArray) : ByteArray :=
  pieces.foldl (· ++ ·) .empty

/-- What an entry puts on the output. -/
def stdout : Entry → ByteArray
  | ran _ _ _ output => output.stdout
  | help text => line text
  | warning _ | remark _ | report _ | offer _ | unreadLine _ => .empty

/-- What an entry puts among the complaints, with reports in the given format. -/
def stderr (format : ReportFormat) : Entry → ByteArray
  | warning w => line s!"Warning: {w.message}"
  | remark r => line s!"Warning: {r.message}"
  | report r => line (r.render format)
  | offer suggestions => concat ((Suggestion.message? suggestions).toList.map line)
  | ran _ _ acts output =>
    concat ((acts.filterMap Act.complaint?).map fun e => line s!"cd: {e.message}") ++ output.stderr
  | help _ => .empty
  | unreadLine cause => line s!"Error reading line: {cause.message}"

end Entry

/-- A shell between two lines. -/
structure Session (σ : Type) where
  store : Store
  format : ReportFormat
  /-- The flag for interrupts, if the shell listens for them. -/
  interrupt : Option Interrupt := none
  context : Context
  /-- The state of the system. -/
  state : σ
  /-- What was shown so far, oldest first. -/
  diary : List Entry := []

/-- What a line came to. -/
inductive LineOutcome where
  | empty
  | assigned (name : Text)
  | ran (result : PipelineResult)
  deriving DecidableEq, Repr

namespace Session

variable {σ : Type} (host : Host σ)

/-- Shows something. -/
def write (s : Session σ) (entry : Entry) : Session σ :=
  { s with diary := s.diary ++ [entry] }

/-- Shows several things. -/
def writeAll (s : Session σ) (entries : List Entry) : Session σ :=
  { s with diary := s.diary ++ entries }

/-- What entries look like on the output. -/
def stdout (entries : List Entry) : ByteArray :=
  Entry.concat (entries.map Entry.stdout)

/-- What entries look like among the complaints. -/
def stderr (format : ReportFormat) (entries : List Entry) : ByteArray :=
  Entry.concat (entries.map (Entry.stderr format))

/-- How the session sees directories. -/
def listing (s : Session σ) : Listing :=
  host.list s.state s.context

/-- Runs a pipeline. An interrupt that arrived meanwhile was meant for its children. -/
def runPipeline (s : Session σ) (pipeline : Pipeline) : PipelineResult × Session σ :=
  let (result, desk) := Desk.run host pipeline ⟨s.context, s.state, []⟩
  let (output, state) := host.takeOutput desk.state
  let interrupt := s.interrupt.map fun (i : Interrupt) => i.take.2
  let s := { s with context := desk.context, state, interrupt }
  (result, s.write (.ran pipeline result desk.acts output))

/-- Runs one line. Warnings are shown, and an error is left to the caller. -/
def interpretLine (s : Session σ) (line : Text) : Except ParseError LineOutcome × Session σ :=
  let (warnings, parsed) := parseLine (s.listing host) s.store line
  let s := s.writeAll (warnings.map .warning)
  match parsed with
  | .error e => (.error e, s)
  | .ok .empty => (.ok .empty, s)
  | .ok (.assignment name value) => (.ok (.assigned name), { s with store := s.store.set name value })
  | .ok (.pipeline pipeline) =>
    let (result, s) := s.runPipeline host pipeline
    (.ok (.ran result), s)

/-- The names offered after an error: only beside reports in text, and only for a command
that was not found. -/
def offers (s : Session σ) : ParseError → List (Suggestion Float)
  | .resolve (.notFound name _) =>
    if s.format = .text then suggest (s.listing host) name s.store.path? else []
  | _ => []

/-- Shows a report. -/
def showReport (s : Session σ) (report : Report) : Session σ :=
  s.write (.report report)

/-- What a line that was reported on comes to: its status, if it has one, or an error after which
the shell cannot go on. -/
abbrev LineStatus := Except ExecError (Option Int)

/-- Runs one line, and reports what goes wrong with it. -/
def runLine (s : Session σ) (line : Text) (location : Option SourceLocation) :
    LineStatus × Session σ :=
  match s.interpretLine host line with
  | (.ok (.ran result), s) =>
    match result.error with
    | none => (.ok (some result.exitCode), s)
    | some e =>
      let s := s.showReport ((Report.ofExecError e).at? location)
      if e.isFatal then (.error e, s) else (.ok (some result.exitCode), s)
  | (.ok .empty, s) | (.ok (.assigned _), s) => (.ok none, s)
  | (.error e, s) =>
    let report := (Report.ofParseError e).at? location
    let s := s.showReport report
    match s.offers host e with
    | [] => (.ok (some report.exitCode), s)
    | suggestions => (.ok (some report.exitCode), s.write (.offer suggestions))

end Session

end LineShell

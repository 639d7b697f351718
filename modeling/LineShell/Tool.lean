import LineShell.Descriptor
import LineShell.Text.Path

/-!
# Tools

The programs that a rehearsed system offers. Each is a small machine, a `Job`, that reads from
descriptor 0 and writes to descriptors 1 and 2 until it exits or ends itself by a signal.
-/

namespace LineShell

/-- A program. -/
inductive Tool where
  /-- Prints every argument in brackets, its own name included. -/
  | args
  /-- Prints its arguments. -/
  | echo
  /-- Prints its arguments as a complaint. -/
  | warn
  /-- Copies its input to its output. -/
  | cat
  /-- Copies its input to its output with the letters from `a` to `z` in upper case. -/
  | upper
  /-- Reads all of its input, then prints the number of bytes. -/
  | count
  /-- Reads all of its input. -/
  | sink
  /-- Reads all of its input, then exits with a code. -/
  | fail
  /-- Exits with a code. -/
  | exit
  /-- Sends itself a signal. -/
  | kill
  /-- Writes a number of bytes. -/
  | blob
  /-- Writes lines without end. -/
  | flood
  /-- Copies the first line of its input, and reads no further. -/
  | first
  /-- Prints the last name of its working directory. -/
  | pwd
  deriving DecidableEq, Repr

namespace Tool

/-- Every tool. -/
def all : List Tool :=
  [args, echo, warn, cat, upper, count, sink, fail, exit, kill, blob, flood, first, pwd]

/-- The usual name of a tool. -/
def name : Tool → String
  | args => "args"
  | echo => "echo"
  | warn => "warn"
  | cat => "cat"
  | upper => "upper"
  | count => "count"
  | sink => "sink"
  | fail => "fail"
  | exit => "exit"
  | kill => "kill"
  | blob => "blob"
  | flood => "flood"
  | first => "first"
  | pwd => "pwd"

/-- The tool of a given name. -/
def ofName? (name : String) : Option Tool :=
  all.find? (·.name == name)

end Tool

/-- What a running tool has left to do. -/
inductive Job where
  /-- Writes the bytes, then goes on with `next`. -/
  | write (target : Descriptor) (bytes : ByteArray) (next : Job)
  /-- Copies the rest of the input, in upper case or as it is. -/
  | copy (upper : Bool)
  /-- Copies the input up to the end of the line. -/
  | copyLine
  /-- Counts the rest of the input, having counted some. -/
  | count (counted : Nat)
  /-- Reads the rest of the input, then exits. -/
  | drain (code : Nat)
  /-- Writes a number of bytes. -/
  | fill (left : Nat)
  /-- Writes lines without end. -/
  | flood
  | exit (code : Nat)
  /-- Sends itself a signal. -/
  | signal (number : Nat)
  /-- Is stopped and does nothing. -/
  | stopped

namespace Job

/-- Prints a text, then exits. -/
def print (target : Descriptor) (text : Text) : Job :=
  .write target (Text.utf8 text) (.exit 0)

/-- The number that an argument writes, 0 if it writes none. -/
def number (argument : Text) : Int :=
  match argument with
  | '-' :: digits => -((Text.decimal? digits).getD 0 : Nat)
  | '+' :: digits => ((Text.decimal? digits).getD 0 : Nat)
  | digits => ((Text.decimal? digits).getD 0 : Nat)

/-- The number that the first argument after the name writes. -/
def firstNumber (argv : List Text) : Int :=
  number ((argv.drop 1).headD [])

/-- The exit code that a number stands for. -/
def exitCode (n : Int) : Nat :=
  (n % 256).toNat

/-- The job of a tool that was called with `argv` in a directory. -/
def start (tool : Tool) (argv : List Text) (directory : Location) : Job :=
  match tool with
  | .args => print .stdout (argv.flatMap fun argument => '[' :: argument ++ [']', '\n'])
  | .echo => print .stdout (List.intercalate [' '] (argv.drop 1) ++ ['\n'])
  | .warn => print .stderr (List.intercalate [' '] (argv.drop 1) ++ ['\n'])
  | .cat => .copy false
  | .upper => .copy true
  | .count => .count 0
  | .sink => .drain 0
  | .fail => .drain (exitCode (firstNumber argv))
  | .exit => .exit (exitCode (firstNumber argv))
  | .kill => .signal (firstNumber argv).toNat
  | .blob => .fill (firstNumber argv).toNat
  | .flood => .flood
  | .first => .copyLine
  | .pwd => print .stdout (directory.getLastD [] ++ ['\n'])

/-- The byte of the capital letter, for a letter from `a` to `z`. -/
def upperByte (b : UInt8) : UInt8 :=
  if 97 ≤ b ∧ b ≤ 122 then b - 32 else b

/-- The most bytes that a tool reads or writes at once. -/
def block : Nat := 65536

/-- Some lines without end. -/
def floodBlock : ByteArray :=
  ⟨((List.replicate 4096 [121, 10]).flatten).toArray⟩

end Job

end LineShell

import LineShell.Text.Basic

/-!
# Faults of the operating system

`SystemError` holds the causes for which a system call can fail: those that the shell looks for or
that its system meets are listed, and any other has its number and brings its own words. Each has a
symbol, a short description (used where a child or a fork fails) and a numbered text (used where the
shell itself reads a file, lists a directory or makes a pipe). `IoError` adds the two faults that
arise before any system call.
-/

namespace LineShell

/-- The numbers of the causes that are listed. -/
def listedCauses : List Nat :=
  [1, 2, 4, 8, 9, 10, 11, 12, 13, 20, 21, 22, 23, 24, 36, 38, 40]

/-- A cause that is not listed: its number, and what the tables of messages say of it. -/
structure UnlistedCause where
  number : Nat
  unlisted : number ∉ listedCauses
  symbol : String
  description : String
  systemWords : String
  deriving DecidableEq, Repr

/-- Why a system call failed. -/
inductive SystemError where
  | notPermitted
  | noEntry
  | interrupted
  | badFormat
  | badDescriptor
  | noChild
  | tryAgain
  | noMemory
  | accessDenied
  | notDirectory
  | isDirectory
  | invalidArgument
  | fileTableFull
  | tooManyOpenFiles
  | nameTooLong
  | notImplemented
  | tooManyLinks
  | other (cause : UnlistedCause)
  deriving DecidableEq, Repr

namespace SystemError

/-- Every listed cause, in the order of the numbers. -/
def all : List SystemError :=
  [notPermitted, noEntry, interrupted, badFormat, badDescriptor, noChild, tryAgain, noMemory,
    accessDenied, notDirectory, isDirectory, invalidArgument, fileTableFull, tooManyOpenFiles,
    nameTooLong, notImplemented, tooManyLinks]

/-- The symbol of a cause. -/
def symbol : SystemError → String
  | notPermitted => "EPERM"
  | noEntry => "ENOENT"
  | interrupted => "EINTR"
  | badFormat => "ENOEXEC"
  | badDescriptor => "EBADF"
  | noChild => "ECHILD"
  | tryAgain => "EAGAIN"
  | noMemory => "ENOMEM"
  | accessDenied => "EACCES"
  | notDirectory => "ENOTDIR"
  | isDirectory => "EISDIR"
  | invalidArgument => "EINVAL"
  | fileTableFull => "ENFILE"
  | tooManyOpenFiles => "EMFILE"
  | nameTooLong => "ENAMETOOLONG"
  | notImplemented => "ENOSYS"
  | tooManyLinks => "ELOOP"
  | other cause => cause.symbol

/-- The listed cause with a given symbol. -/
def ofSymbol? (symbol : String) : Option SystemError :=
  all.find? (·.symbol == symbol)

/-- The number of a cause. -/
def number : SystemError → Nat
  | notPermitted => 1
  | noEntry => 2
  | interrupted => 4
  | badFormat => 8
  | badDescriptor => 9
  | noChild => 10
  | tryAgain => 11
  | noMemory => 12
  | accessDenied => 13
  | notDirectory => 20
  | isDirectory => 21
  | invalidArgument => 22
  | fileTableFull => 23
  | tooManyOpenFiles => 24
  | nameTooLong => 36
  | notImplemented => 38
  | tooManyLinks => 40
  | other cause => cause.number

/-- The short description of a cause. -/
def description : SystemError → String
  | notPermitted => "Operation not permitted"
  | noEntry => "No such file or directory"
  | interrupted => "Interrupted system call"
  | badFormat => "Exec format error"
  | badDescriptor => "Bad file number"
  | noChild => "No child processes"
  | tryAgain => "Try again"
  | noMemory => "Out of memory"
  | accessDenied => "Permission denied"
  | notDirectory => "Not a directory"
  | isDirectory => "Is a directory"
  | invalidArgument => "Invalid argument"
  | fileTableFull => "File table overflow"
  | tooManyOpenFiles => "Too many open files"
  | nameTooLong => "File name too long"
  | notImplemented => "Function not implemented"
  | tooManyLinks => "Too many symbolic links encountered"
  | other cause => cause.description

/-- The words of the system's own message table, where they differ from the short description. -/
def systemWords : SystemError → String
  | badDescriptor => "Bad file descriptor"
  | tryAgain => "Resource temporarily unavailable"
  | noMemory => "Cannot allocate memory"
  | fileTableFull => "Too many open files in system"
  | tooManyLinks => "Too many levels of symbolic links"
  | other cause => cause.systemWords
  | e => e.description

/-- The numbered text of a cause. -/
def numberedText (e : SystemError) : String :=
  s!"{e.systemWords} (os error {e.number})"

/-- The symbol and the short description of a cause. -/
def symbolText (e : SystemError) : String :=
  s!"{e.symbol}: {e.description}"

/-- A resource that every later line would need as well has run out. -/
def isExhaustion : SystemError → Bool
  | tooManyOpenFiles | fileTableFull | noMemory | tryAgain => true
  | _ => false

end SystemError

/-- Why the shell could not read or list something. -/
inductive IoError where
  /-- A system call failed. -/
  | system (cause : SystemError)
  /-- The path holds a NUL character, so no system call was made. -/
  | nulInPath
  /-- The bytes read are not UTF-8. -/
  | notUtf8
  deriving DecidableEq, Repr

/-- The words for an input or output fault. -/
def IoError.message : IoError → String
  | system cause => cause.numberedText
  | nulInPath => "file name contained an unexpected NUL byte"
  | notUtf8 => "stream did not contain valid UTF-8"

end LineShell

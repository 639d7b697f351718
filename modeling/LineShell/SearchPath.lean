import LineShell.Command
import LineShell.Fault

/-!
# The search path

The value of `PATH` is a list of directories separated by `:`; empty ones are ignored. A command
name is looked up in them in order, unless it is the name of a built-in command or holds a `/`.
Directories are seen through a `Listing`, and those that cannot be listed are skipped and reported.
-/

namespace LineShell

/-- The name of a directory entry: a text, or bytes that are not UTF-8. -/
inductive EntryName where
  | text (name : Text)
  | bytes (name : List UInt8)
  deriving DecidableEq, Repr

/-- The entries of a directory, or why it cannot be listed. -/
abbrev Listing := Text → Except IoError (List EntryName)

/-- A directory on the search path that cannot be listed. -/
structure SkippedEntry where
  directory : Text
  reason : IoError
  deriving DecidableEq, Repr

/-- A command name that was found. -/
structure Resolution where
  program : Program
  /-- The directories before it that cannot be listed. -/
  skipped : List SkippedEntry
  deriving DecidableEq, Repr

/-- Why a command name leads to no program. -/
inductive ResolveError where
  /-- No directory that can be listed has the name. -/
  | notFound (name : Text) (skipped : List SkippedEntry)
  /-- There is no search path. -/
  | pathUnset (name : Text)
  deriving DecidableEq, Repr

namespace ResolveError

/-- The command name that was looked up. -/
def name : ResolveError → Text
  | notFound name _ | pathUnset name => name

/-- The directories that were skipped. -/
def skipped : ResolveError → List SkippedEntry
  | notFound _ skipped => skipped
  | pathUnset _ => []

/-- The words for a failed look-up. -/
def message : ResolveError → String
  | notFound name _ => s!"Could not resolve executable [{String.ofList name}]"
  | pathUnset name => s!"Could not resolve executable [{String.ofList name}]: PATH is not set"

end ResolveError

namespace SearchPath

/-- The directories of a search path. -/
def directories (path : Text) : List Text :=
  (path.splitOn ':').filter (!·.isEmpty)

/-- The path of the entry `name` of `directory`, with one `/` between them. -/
def join (directory name : Text) : Text :=
  if directory.getLast? = some '/' then directory ++ name else directory ++ '/' :: name

/-- The first of the directories that has an entry `name`, and those before it that cannot be
listed. -/
def search (listing : Listing) (name : Text) : List Text → List SkippedEntry × Option Text
  | [] => ([], none)
  | directory :: rest =>
    match listing directory with
    | .error reason =>
      (⟨directory, reason⟩ :: (search listing name rest).1, (search listing name rest).2)
    | .ok entries =>
      if .text name ∈ entries then ([], some directory) else search listing name rest

end SearchPath

/-- The program that a command name stands for. -/
def resolve (listing : Listing) (name : Text) (path : Option Text) :
    Except ResolveError Resolution :=
  match Builtin.ofName? name with
  | some command => .ok ⟨.builtin command, []⟩
  | none =>
    if '/' ∈ name then .ok ⟨.external name, []⟩
    else
      match path with
      | none => .error (.pathUnset name)
      | some path =>
        match SearchPath.search listing name (SearchPath.directories path) with
        | (skipped, some directory) => .ok ⟨.external (SearchPath.join directory name), skipped⟩
        | (skipped, none) => .error (.notFound name skipped)

end LineShell

import LineShell.Fault
import LineShell.Text.Path

/-!
# Changing the working directory

`cd` goes to the home directory if it has no argument or the argument `~`; an argument that starts
with `~/` is a path seen from there; any other argument is a path as it stands. The place is
looked up before anything changes, and only if it is a directory the system is asked to go there,
which can still fail.
-/

namespace LineShell

/-- Why the working directory cannot be changed. -/
inductive CdError where
  /-- The home directory is asked for, and not known. -/
  | noHome
  | notFound (path : Text)
  | notDirectory (path : Text)
  | io (path : Text) (cause : IoError)
  deriving DecidableEq, Repr

/-- The words for a failed change of directory. -/
def CdError.message : CdError → String
  | noHome => "could not determine home directory"
  | notFound path => s!"no such file or directory: {String.ofList path}"
  | notDirectory path => s!"not a directory: {String.ofList path}"
  | io path cause => s!"{String.ofList path}: {cause.message}"

/-- How a place is looked up: its location if it is a directory, nothing if it is something else. -/
abbrev Locator := Text → Except IoError (Option Location)

/-- How the system goes to a directory: the new working directory. -/
abbrev Mover := Text → Except IoError Location

namespace Directory

/-- The path that the argument of `cd` stands for. There is none if that takes a home directory
which is not known. -/
def targetPath? (home : Option Text) : Option Text → Option Text
  | none => home
  | some ['~'] => home
  | some ('~' :: '/' :: rest) => home.map (Path.join · rest)
  | some path => some path

/-- Goes to the directory at a path, if there is one. -/
def enter (locate : Locator) (move : Mover) (path : Text) : Except CdError (Text × Location) :=
  match locate path with
  | .ok (some _) =>
    match move path with
    | .ok location => .ok (path, location)
    | .error cause => .error (.io path cause)
  | .ok none => .error (.notDirectory path)
  | .error (.system .noEntry) => .error (.notFound path)
  | .error cause => .error (.io path cause)

/-- Where `cd` leads: the path it goes by and the directory there. -/
def change (home : Option Text) (locate : Locator) (move : Mover) (target : Option Text) :
    Except CdError (Text × Location) :=
  match targetPath? home target with
  | none => .error .noHome
  | some path => enter locate move path

end Directory

end LineShell

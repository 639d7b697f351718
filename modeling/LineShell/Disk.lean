import LineShell.Descriptor
import LineShell.Directory
import LineShell.SearchPath
import LineShell.Tool

/-!
# A disk

A `Disk` holds directories, files, links, programs and the null device, each at a location. A path
is walked name by name, and a link on the way is replaced by its target, at most 40 times. Where a
file is to be made, the last name of the path may be vacant.
-/

namespace LineShell

/-- What can be at a location. -/
inductive Node where
  | directory
  | file (content : ByteArray) (executable : Bool)
  /-- A symbolic link. -/
  | link (target : Text)
  | program (tool : Tool)
  /-- Reads as empty, and takes everything. -/
  | null

/-- Nodes at locations. -/
structure Disk where
  nodes : List (Location × Node)

namespace Disk

/-- The disk with nothing but the root directory. -/
def empty : Disk := ⟨[([], .directory)]⟩

/-- What is at a location. -/
def node? (disk : Disk) (location : Location) : Option Node :=
  disk.nodes.lookup location

/-- The nodes with a node at `location`, in place of an earlier one if there is one. -/
def replace (location : Location) (node : Node) :
    List (Location × Node) → List (Location × Node)
  | [] => [(location, node)]
  | (l, n) :: rest =>
    if l = location then (l, node) :: rest else (l, n) :: replace location node rest

/-- The disk with a node at a location. -/
def put (disk : Disk) (location : Location) (node : Node) : Disk :=
  ⟨replace location node disk.nodes⟩

/-- Whether there is a directory at a location. -/
def isDirectory (disk : Disk) (location : Location) : Bool :=
  match disk.node? location with
  | some .directory => true
  | _ => false

/-- The last name of a location right below `directory`. -/
def entryOf? (directory location : Location) : Option Text :=
  match location.getLast? with
  | some name => if location = directory ++ [name] then some name else none
  | none => none

/-- The names in a directory. -/
def entries (disk : Disk) (directory : Location) : List Text :=
  disk.nodes.filterMap fun (location, _) => entryOf? directory location

/-- Where a path leads. -/
inductive Place where
  | found (location : Location) (node : Node)
  /-- To a name that is free in its directory. -/
  | vacant (location : Location)

/-- The most links that are followed on one path. -/
def linkLimit : Nat := 40

/-- The most bytes in a name. -/
def nameLimit : Nat := 255

/-- The number of bytes from which on a path is too long. -/
def pathLimit : Nat := 4096

/-- The names that are left to walk after a link to `target`, before which `rest` was left. -/
def followed (target : Text) (rest : List Text) : List Text :=
  if rest.isEmpty then Path.names target
  else (Path.names target).filter (!·.isEmpty) ++ rest

/-- Walks `names` from `here`, following at most `links` links. If a file is to be made (`create`),
the last name may be vacant, and must not ask for a directory. -/
def walk (disk : Disk) (create : Bool) (links : Nat) (here : Location) :
    List Text → Except SystemError Place
  | [] =>
    match disk.node? here with
    | some node => .ok (.found here node)
    | none => .error .noEntry
  | name :: rest =>
    if !disk.isDirectory here then .error .notDirectory
    else if name = [] ∨ name = ['.'] then walk disk create links here rest
    else if name = ['.', '.'] then walk disk create links here.dropLast rest
    else if create && rest == [[]] then .error .isDirectory
    else if nameLimit < Text.byteLength name then .error .nameTooLong
    else
      match disk.node? (here ++ [name]) with
      | none => if create && rest.isEmpty then .ok (.vacant (here ++ [name])) else .error .noEntry
      | some (.link target) =>
        match links with
        | 0 => .error .tooManyLinks
        | links + 1 =>
          walk disk create links (if Path.isAbsolute target then [] else here) (followed target rest)
      | some _ => walk disk create links (here ++ [name]) rest
termination_by names => (links, names.length)

/-- Why a path is refused before it is walked. -/
def refusal? (path : Text) : Option SystemError :=
  if path.isEmpty then some .noEntry
  else if pathLimit ≤ Text.byteLength path then some .nameTooLong
  else none

/-- Where a path from `directory` leads. -/
def lookUp (disk : Disk) (create : Bool) (directory : Location) (path : Text) :
    Except SystemError Place :=
  match refusal? path with
  | some cause => .error cause
  | none =>
    disk.walk create linkLimit (if Path.isAbsolute path then [] else directory) (Path.names path)

/-- Looks up a path for which a descriptor will be needed. -/
def lookUpFor (disk : Disk) (create : Bool) (table : Table) (directory : Location) (path : Text) :
    Except SystemError Place :=
  match refusal? path with
  | some cause => .error cause
  | none => if table.hasRoom 1 then disk.lookUp create directory path else .error .tooManyOpenFiles

/-- The result of a system call on a path, or the fault of a path with a NUL character. -/
def guardNul {α : Type} (path : Text) (result : Except SystemError α) : Except IoError α :=
  if '\x00' ∈ path then .error .nulInPath else result.mapError .system

/-- Looks up a place. -/
def locate (disk : Disk) (directory : Location) : Locator := fun path =>
  guardNul path do
    match ← disk.lookUp false directory path with
    | .found location .directory => return some location
    | _ => return none

/-- Lists a directory. -/
def list (disk : Disk) (table : Table) (directory : Location) : Listing := fun path =>
  guardNul path do
    match ← disk.lookUpFor false table directory path with
    | .found location .directory => return (disk.entries location).map .text
    | _ => throw .notDirectory

/-- The program at a path. -/
def program (disk : Disk) (directory : Location) (path : Text) : Except SystemError Tool := do
  match ← disk.lookUp false directory path with
  | .found _ (.program tool) => return tool
  | .found _ (.file _ true) => throw .badFormat
  | .found _ _ => throw .accessDenied
  | .vacant _ => throw .noEntry

/-- The disk with the directories of a location, from the root down, where there is nothing yet. -/
def withParents (disk : Disk) (location : Location) : Disk :=
  (List.range location.length).foldl
    (fun disk k =>
      let l := location.take k
      if (disk.node? l).isNone then disk.put l .directory else disk)
    disk

/-- The disk with a node at a path seen from a directory. Directories that are missing on the way
are made, and links on the way are followed. -/
def install (disk : Disk) (directory : Location) (path : Text) (node : Node) : Disk :=
  match disk.lookUp true directory path with
  | .ok (.found location _) => disk.put location node
  | .ok (.vacant location) => disk.put location node
  | .error _ =>
    let location := directory ++ (Path.names path).filter (!·.isEmpty)
    (disk.withParents location).put location node

/-- The path of a location below `top`, seen from there. -/
def pathBelow? (top location : Location) : Option Text :=
  if top.isPrefixOf location && top != location then
    some (List.intercalate ['/'] (location.drop top.length))
  else none

/-- The regular files below `top`: their paths seen from there, and their contents. -/
def filesBelow (disk : Disk) (top : Location) : List (Text × ByteArray) :=
  disk.nodes.filterMap fun (location, node) =>
    match pathBelow? top location, node with
    | some path, .file content _ => some (path, content)
    | _, _ => none

/-- The regular files below `top` that are not in `before` with the same content. -/
def changedFiles (disk before : Disk) (top : Location) : List (Text × ByteArray) :=
  (disk.filesBelow top).filter fun (path, content) =>
    (before.filesBelow top).lookup path != some content

end Disk

end LineShell

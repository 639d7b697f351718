import LineShell.Child
import LineShell.Disk

/-!
# A rehearsed system

A `World` is a system that is small enough to be a value: a disk, open files, pipes, and children
that run tools. `World.host` puts it under the shell.

Children run only while one of them is waited for. Of those that can go on, the leftmost does
one step; a child can go on unless it reads from an empty pipe that may still be written to, or
writes to a full one that may still be read from. A child that writes to a pipe nobody reads
from ends by a signal.
-/

namespace LineShell

/-- What an open file refers to. -/
inductive Target where
  /-- A regular file on the disk. -/
  | node (location : Location)
  /-- Bytes that are on no disk. -/
  | memory (content : ByteArray)
  /-- A directory, which can be opened but not read from. -/
  | directory
  /-- What reads as empty and takes everything. -/
  | null
  /-- The output of the children. -/
  | output
  /-- The complaints of the children. -/
  | complaints

/-- An open file. Descriptors that refer to it share its position. -/
structure OpenFile where
  target : Target
  /-- Where the next byte is read or written. -/
  position : Nat := 0
  /-- Everything is written at the end. -/
  append : Bool := false

/-- The bytes in a pipe. -/
structure PipeBuffer where
  content : ByteArray := .empty
  /-- How many bytes of the content were read already. -/
  taken : Nat := 0

namespace PipeBuffer

/-- The most bytes in a pipe. -/
def capacity : Nat := 65536

/-- A write of at least this many bytes waits until this many fit. -/
def leastRoom : Nat := 4096

/-- The number of bytes in a pipe. -/
def size (b : PipeBuffer) : Nat :=
  b.content.size - b.taken

/-- The number of bytes that fit in a pipe. -/
def room (b : PipeBuffer) : Nat :=
  capacity - b.size

/-- The bytes in a pipe. -/
def available (b : PipeBuffer) : ByteArray :=
  b.content.extract b.taken b.content.size

/-- The pipe without its first `count` bytes. -/
def drop (b : PipeBuffer) (count : Nat) : PipeBuffer :=
  { b with taken := b.taken + count }

/-- The pipe with more bytes. -/
def add (b : PipeBuffer) (bytes : ByteArray) : PipeBuffer :=
  ⟨b.available ++ bytes, 0⟩

end PipeBuffer

/-- What a child is doing. -/
inductive Activity where
  | running (job : Job)
  | ended (report : WaitReport)

/-- A child process. -/
structure ChildProcess where
  id : ChildId
  table : Table
  activity : Activity

/-- A system. -/
structure World where
  disk : Disk
  /-- The open files, by handle. -/
  openFiles : Array OpenFile := #[]
  pipes : List (Nat × PipeBuffer) := []
  /-- The children that were not waited for yet, oldest first. -/
  children : List ChildProcess := []
  /-- How many children there were. -/
  childrenMade : Nat := 0
  /-- What the children wrote and nobody took. -/
  output : Output := {}

namespace World

/-- The descriptors that a shell starts with, which refer to the first three open files. -/
def firstTable (limit : Option Nat) : Table :=
  ⟨[(.stdin, .file 0), (.stdout, .file 1), (.stderr, .file 2)], limit⟩

/-- A system in which nothing happened yet, for a shell whose input is `input`. -/
def start (disk : Disk) (input : ByteArray) : World :=
  { disk, openFiles := #[{ target := .memory input }, { target := .output }, { target := .complaints }] }

/-- The system with another input for the shell. -/
def withInput (w : World) (input : ByteArray) : World :=
  { w with openFiles := w.openFiles.setIfInBounds 0 { target := .memory input } }

/-! ## Open files -/

/-- What reads from a target in full. -/
def content (w : World) : Target → ByteArray
  | .node location =>
    match w.disk.node? location with
    | some (.file content _) => content
    | _ => .empty
  | .memory content => content
  | .directory | .null | .output | .complaints => .empty

/-- Adds an open file, and gives its handle. -/
def addFile (w : World) (file : OpenFile) : Nat × World :=
  (w.openFiles.size, { w with openFiles := w.openFiles.push file })

/-- Reads from an open file as many bytes as `want` says of those that are there. -/
def readFile (w : World) (handle : Nat) (want : ByteArray → Nat) :
    Except SystemError ByteArray × World :=
  match w.openFiles[handle]? with
  | none => (.error .badDescriptor, w)
  | some file =>
    match file.target with
    | .directory => (.error .isDirectory, w)
    | target =>
      let content := w.content target
      let count := want (content.extract file.position (file.position + Job.block))
      let bytes := content.extract file.position (file.position + count)
      let file := { file with position := file.position + bytes.size }
      (.ok bytes, { w with openFiles := w.openFiles.setIfInBounds handle file })

/-- `content` with `bytes` from `position` on; what lies between its end and there is filled with
zeros. -/
def overwrite (content : ByteArray) (position : Nat) (bytes : ByteArray) : ByteArray :=
  content.extract 0 position
    ++ ⟨Array.replicate (position - content.size) 0⟩
    ++ bytes
    ++ content.extract (position + bytes.size) content.size

/-- Writes to an open file. -/
def writeFile (w : World) (handle : Nat) (bytes : ByteArray) : World :=
  match w.openFiles[handle]? with
  | none => w
  | some file =>
    match file.target with
    | .output => { w with output := { w.output with stdout := w.output.stdout ++ bytes } }
    | .complaints => { w with output := { w.output with stderr := w.output.stderr ++ bytes } }
    | .memory _ | .directory | .null => w
    | .node location =>
      match w.disk.node? location with
      | some (.file content executable) =>
        let position := if file.append then content.size else file.position
        let file := { file with position := position + bytes.size }
        { w with
          disk := w.disk.put location (.file (overwrite content position bytes) executable)
          openFiles := w.openFiles.setIfInBounds handle file }
      | _ => w

/-! ## Pipes -/

/-- What is in a pipe. -/
def pipe (w : World) (k : Nat) : PipeBuffer :=
  (w.pipes.lookup k).getD {}

/-- The system with `buffer` in a pipe. -/
def setPipe (w : World) (k : Nat) (buffer : PipeBuffer) : World :=
  { w with pipes := (k, buffer) :: w.pipes.filter (·.1 != k) }

/-- Whether the shell or a child has a descriptor for `channel`. -/
def isHeld (w : World) (shell : Table) (channel : Channel) : Bool :=
  shell.slots.any (·.2 == channel) || w.children.any fun child => child.table.slots.any (·.2 == channel)

/-! ## Reading and writing -/

/-- Reads from a descriptor as many bytes as `want` says of those that are there, none at the end.
There is no result if the reader has to wait. What cannot be read is taken for the end. -/
def read (w : World) (shell table : Table) (d : Descriptor) (want : ByteArray → Nat) :
    Option (ByteArray × World) :=
  match table.get? d with
  | some (.file handle) =>
    match w.readFile handle want with
    | (.ok bytes, w) => some (bytes, w)
    | (.error _, w) => some (.empty, w)
  | some (.pipeReader k) =>
    let buffer := w.pipe k
    if buffer.size = 0 then
      if w.isHeld shell (.pipeWriter k) then none else some (.empty, w)
    else
      let bytes := buffer.available
      let bytes := bytes.extract 0 (want bytes)
      some (bytes, w.setPipe k (buffer.drop bytes.size))
  | _ => some (.empty, w)

/-- What comes of a write. -/
inductive Writing where
  /-- The writer has to wait. -/
  | waiting
  /-- Nobody will read it. -/
  | broken
  /-- The first `count` bytes are written. -/
  | written (count : Nat) (world : World)

/-- Writes to a descriptor. What cannot be written is lost. -/
def write (w : World) (shell table : Table) (d : Descriptor) (bytes : ByteArray) : Writing :=
  match table.get? d with
  | some (.file handle) => .written bytes.size (w.writeFile handle bytes)
  | some (.pipeWriter k) =>
    let buffer := w.pipe k
    if !w.isHeld shell (.pipeReader k) then .broken
    else if buffer.room < min bytes.size PipeBuffer.leastRoom then .waiting
    else
      let count := min bytes.size buffer.room
      .written count (w.setPipe k (buffer.add (bytes.extract 0 count)))
  | _ => .written bytes.size w

/-! ## Children -/

/-- The number of the signal that ends a child whose output nobody reads. -/
def brokenPipe : Nat := 13

/-- The signals that change nothing unless a program asks for them. -/
def ignoredSignals : List Nat := [17, 18, 23, 28]

/-- The signals that stop a program. -/
def stopSignals : List Nat := [19, 20, 21, 22]

/-- What a signal to itself makes of a child. A child that ends by a signal of the higher numbers
cannot be reported on. -/
def signalEffect (n : Nat) : Activity :=
  if n = 0 ∨ 64 < n ∨ n ∈ ignoredSignals then .running (.exit 0)
  else if n ∈ stopSignals then .running .stopped
  else if n < 32 then .ended (.signaled n)
  else .ended (.failed .invalidArgument)

/-- The system in which a child does something else. Who has ended has no descriptors. -/
def update (w : World) (child : ChildProcess) (activity : Activity) : World :=
  let table := match activity with
    | .running _ => child.table
    | .ended _ => ⟨[], none⟩
  { w with children := w.children.map fun c => if c.id = child.id then ⟨c.id, table, activity⟩ else c }

/-- The number of bytes up to the end of the first line. -/
def lineLength (bytes : ByteArray) : Nat :=
  match bytes.data.findIdx? (· == 10) with
  | some i => i + 1
  | none => bytes.size

/-- One step of a child; nothing if it has to wait or has ended. -/
def step (w : World) (shell : Table) (child : ChildProcess) : Option World :=
  let input := w.read shell child.table .stdin
  match child.activity with
  | .ended _ => none
  | .running job =>
    match job with
    | .write target bytes next =>
      if bytes.isEmpty then some (w.update child (.running next))
      else
        match w.write shell child.table target bytes with
        | .waiting => none
        | .broken => some (w.update child (.ended (.signaled brokenPipe)))
        | .written count w =>
          some (w.update child (.running (.write target (bytes.extract count bytes.size) next)))
    | .copy upper =>
      (input ByteArray.size).map fun (bytes, w) =>
        if bytes.isEmpty then w.update child (.running (.exit 0))
        else
          let bytes := if upper then ⟨bytes.data.map Job.upperByte⟩ else bytes
          w.update child (.running (.write .stdout bytes (.copy upper)))
    | .copyLine =>
      (input lineLength).map fun (bytes, w) =>
        let next := if bytes.isEmpty || bytes.data.back? == some 10 then .exit 0 else .copyLine
        w.update child (.running (.write .stdout bytes next))
    | .count counted =>
      (input ByteArray.size).map fun (bytes, w) =>
        if bytes.isEmpty then
          w.update child (.running (.print .stdout ((toString counted).toList ++ ['\n'])))
        else w.update child (.running (.count (counted + bytes.size)))
    | .drain code =>
      (input ByteArray.size).map fun (bytes, w) =>
        w.update child (.running (if bytes.isEmpty then .exit code else .drain code))
    | .fill left =>
      if left = 0 then some (w.update child (.running (.exit 0)))
      else
        let count := min left Job.block
        let bytes : ByteArray := ⟨Array.replicate count 120⟩
        some (w.update child (.running (.write .stdout bytes (.fill (left - count)))))
    | .flood => some (w.update child (.running (.write .stdout Job.floodBlock .flood)))
    | .exit code => some (w.update child (.ended (.exited code)))
    | .signal number => some (w.update child (signalEffect number))
    | .stopped => none

/-- One step of the leftmost child that can go on; nothing if none can. -/
def advance (w : World) (shell : Table) : Option World :=
  w.children.findSome? (w.step shell)

/-- How a child ended, if it has. -/
def report? (w : World) (id : ChildId) : Option WaitReport :=
  w.children.findSome? fun child =>
    match child.activity with
    | .ended report => if child.id = id then some report else none
    | .running _ => none

/-- Lets the children go on, for at most the given number of steps, until one of them has ended. -/
def advanceUntil (shell : Table) (id : ChildId) : Nat → World → World
  | 0, w => w
  | steps + 1, w =>
    if (w.report? id).isSome then w
    else
      match w.advance shell with
      | some w => advanceUntil shell id steps w
      | none => w

/-- How many steps the children may do while one of them is waited for. -/
def patience : Nat := Nat.pow 2 24

/-- Waits for a child. A child that does not end has nothing to report. -/
def wait (w : World) (context : Context) (id : ChildId) : List WaitReport × World :=
  if w.children.any (·.id == id) then
    let w := advanceUntil context.table id patience w
    ((w.report? id).toList, { w with children := w.children.filter (·.id != id) })
  else ([.failed .noChild], w)

/-- Opens a file for reading. -/
def openInput (directory : Location) (w : World) (table : Table) (path : Text) :
    Except SystemError Nat × World :=
  match w.disk.lookUpFor false table directory path with
  | .error cause => (.error cause, w)
  | .ok (.vacant _) => (.error .noEntry, w)
  | .ok (.found location node) =>
    let target : Target := match node with
      | .file _ _ => .node location
      | .directory => .directory
      | .link _ | .program _ | .null => .null
    let (handle, w) := w.addFile { target }
    (.ok handle, w)

/-- Opens a file for writing, at its end (`append`) or from its start, where it becomes empty. -/
def openOutput (directory : Location) (w : World) (table : Table) (path : Text) (append : Bool) :
    Except SystemError Nat × World :=
  match w.disk.lookUpFor true table directory path with
  | .error cause => (.error cause, w)
  | .ok (.vacant location) =>
    let w := { w with disk := w.disk.put location (.file .empty false) }
    let (handle, w) := w.addFile { target := .node location, append }
    (.ok handle, w)
  | .ok (.found location node) =>
    match node with
    | .directory => (.error .isDirectory, w)
    | .file content executable =>
      let content := if append then content else .empty
      let w := { w with disk := w.disk.put location (.file content executable) }
      let (handle, w) := w.addFile { target := .node location, append }
      (.ok handle, w)
    | .link _ | .program _ | .null =>
      let (handle, w) := w.addFile { target := .null, append }
      (.ok handle, w)

/-- How children in a directory open files. -/
def opener (directory : Location) : Child.Opener World where
  openInput w table path :=
    let (handle, w) := openInput directory w table path
    (handle.map .file, w)
  openOutput w table path append :=
    let (handle, w) := openOutput directory w table path append
    (handle.map .file, w)

/-- The system with a new child, and its number. -/
def addChild (w : World) (table : Table) (activity : Activity) : ChildId × World :=
  let id := w.childrenMade + 1
  (id, { w with children := w.children ++ [⟨id, table, activity⟩], childrenMade := id })

/-- The system in which a child that cannot become its program says so and exits. -/
def addFailedChild (w : World) (table : Table) (failure : Child.Failure) : ChildId × World :=
  let job : Job := .write .stderr failure.message.toUTF8 (.exit failure.code.toNat)
  w.addChild table (.running job)

/-- Starts a child. -/
def spawn (w : World) (context : Context) (stage : PreparedStage) (ends : StageEnds)
    (siblings : List Descriptor) : Except SystemError ChildId × World :=
  let (table, w) := Child.setUp (opener context.directory) stage ends siblings context.table w
  let (id, w) :=
    match table with
    | .error failure => w.addFailedChild ⟨context.table.slots.filter (!·.2.isPipeEnd), none⟩ failure
    | .ok table =>
      match w.disk.program context.directory stage.path with
      | .error cause => w.addFailedChild table (.ofProgram stage.name cause)
      | .ok tool => w.addChild table (.running (.start tool stage.argv context.directory))
  (.ok id, w)

/-- Opens a file for the shell. -/
def openFile (w : World) (context : Context) (path : Text) : Except IoError Nat × World :=
  if '\x00' ∈ path then (.error .nulInPath, w)
  else
    let (handle, w) := openInput context.directory w context.table path
    (handle.mapError .system, w)

/-- The most bytes that the shell reads at once. -/
def shellBlock : Nat := 8192

/-- Reads a block for the shell. -/
def readBlock (w : World) (context : Context) (d : Descriptor) :
    Except IoError (List UInt8) × World :=
  match context.table.get? d with
  | some (.file handle) =>
    let (bytes, w) := w.readFile handle fun bytes => min bytes.size shellBlock
    ((bytes.map ByteArray.toList).mapError .system, w)
  | _ => (.error (.system .badDescriptor), w)

/-- Goes to a directory. -/
def move (w : World) (context : Context) (path : Text) : Except IoError Location :=
  match w.disk.locate context.directory path with
  | .ok (some location) => .ok location
  | .ok none => .error (.system .notDirectory)
  | .error cause => .error cause

/-- The system under a shell whose user has the given home directory. -/
def host (home : Text) : Host World where
  home := some home
  makePipe w k := .ok (w.setPipe k {})
  spawn
  wait
  locate w context := w.disk.locate context.directory
  move
  list w context := w.disk.list context.table context.directory
  openFile
  readBlock
  takeOutput w := (w.output, { w with output := {} })

end World

end LineShell

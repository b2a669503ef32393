import Formulary.Error
import Formulary.Text.Utf8

namespace Formulary

/-- The parts of an absolute name. -/
abbrev Location := List String

/-- A file; `program` is what runs when it is started. -/
structure DiskFile (Program : Type) where
  content : Text.Bytes
  runnable : Bool
  program : Option Program

inductive DiskEntry (Program : Type) where
  | directory
  | file (file : DiskFile Program)

structure Disk (Program : Type) where
  entries : List (Location × DiskEntry Program)
  current : Location

namespace Disk

variable {Program : Type}

def new (current : Location) : Disk Program :=
  ⟨(List.range current.length).map fun depth => (current.take (depth + 1), .directory), current⟩

def entry? (disk : Disk Program) (location : Location) : Option (DiskEntry Program) :=
  if location = [] then some .directory
  else (disk.entries.find? fun entry => entry.1 = location).map (·.2)

def put (disk : Disk Program) (location : Location) (entry : DiskEntry Program) : Disk Program :=
  { disk with entries := (location, entry) :: disk.entries.filter fun other => other.1 ≠ location }

/-- The most bytes in a part of a name. -/
def maxPart : Nat := 255

/-- The most bytes in a name. -/
def maxName : Nat := 4095

def within (directory : Location) (part : String) : Except OsFault Location :=
  if part.utf8ByteSize ≤ maxPart then .ok (directory ++ [part]) else .error .nameTooLong

def step (directory : Location) (part : String) : Except OsFault Location :=
  if part = "." then .ok directory
  else if part = ".." then .ok directory.dropLast
  else within directory part

def walk (disk : Disk Program) : Location → List String → Except OsFault Location
  | directory, [] => .ok directory
  | directory, part :: rest =>
    match step directory part with
    | .error fault => .error fault
    | .ok location =>
      match disk.entry? location with
      | none => .error .missing
      | some (.file _) => .error .notDirectory
      | some .directory => disk.walk location rest

def start (disk : Disk Program) (path : Path) : Location :=
  if path.isAbsolute then [] else disk.current

/-- What a name says without a look at its last part: the directory to look in, and the
part to look for. A name that ends in dots, like that of the root, is one of a directory
itself. -/
def target (disk : Disk Program) (path : Path) : Except OsFault (Location × Option String) :=
  if path.text.toList.contains '\x00' then .error .nulInName
  else if path.text.isEmpty then .error .missing
  else if maxName < path.text.utf8ByteSize then .error .nameTooLong
  else
    match path.parts.reverse with
    | [] => .ok ([], none)
    | last :: above => do
      let directory ← disk.walk (disk.start path) above.reverse
      if last = "." || last = ".." then return (← step directory last, none)
      else return (directory, some last)

/-- The entry that a name stands for. -/
def lookup (disk : Disk Program) (path : Path) : Except OsFault (Location × DiskEntry Program) := do
  match ← disk.target path with
  | (directory, none) => return (directory, .directory)
  | (directory, some part) =>
    let location ← within directory part
    match disk.entry? location with
    | none => .error .missing
    | some .directory => return (location, .directory)
    | some (.file file) =>
      if path.isClosed then .error .notDirectory else return (location, .file file)

def isThere (disk : Disk Program) (path : Path) : Bool := (disk.lookup path).isOk

def isDirectory (disk : Disk Program) (path : Path) : Bool :=
  match disk.lookup path with
  | .ok (_, .directory) => true
  | _ => false

def read (disk : Disk Program) (path : Path) : Except OsFault (Except OsFault Text.Bytes) := do
  match ← disk.lookup path with
  | (_, .directory) => return .error .isDirectory
  | (_, .file file) => return .ok file.content

/-- Writes over a file; a file that could be started keeps that right. -/
def write (disk : Disk Program) (path : Path) (content : Text.Bytes) :
    Except OsFault (Disk Program) := do
  match ← disk.target path with
  | (_, none) => .error .isDirectory
  | (directory, some part) =>
    if path.isClosed then .error .isDirectory
    else
      let location ← within directory part
      match disk.entry? location with
      | some .directory => .error .isDirectory
      | some (.file file) => return disk.put location (.file ⟨content, file.runnable, none⟩)
      | none => return disk.put location (.file ⟨content, false, none⟩)

/-- A name in a directory that nothing has. There are more candidates than entries. -/
def freshName (disk : Disk Program) (directory : Path) : Path :=
  let names := (List.range (disk.entries.length + 1)).map fun number =>
    directory.join ⟨".tmp" ++ toString (100000 + number)⟩
  (names.find? fun path => !disk.isThere path).getD (directory.join ⟨".tmp"⟩)

/-- Moves a new file into place. -/
def replace (disk : Disk Program) (path : Path) (content : Text.Bytes) :
    Except OsFault (Disk Program) := do
  if path.text.toList.contains '\x00' then .error .invalid
  else
    match ← disk.target path with
    | (_, none) => .error .busy
    | (directory, some part) =>
      let location ← within directory part
      if path.isClosed then .error .notDirectory
      else
        match disk.entry? location with
        | some .directory => .error .isDirectory
        | _ => return disk.put location (.file ⟨content, false, none⟩)

/-- Puts a program in place that can be started. -/
def install (disk : Disk Program) (path : Path) (program : Program) :
    Except OsFault (Disk Program) := do
  let written ← disk.write path []
  let (location, _) ← written.lookup path
  return written.put location (.file ⟨[], true, some program⟩)

def makeDirectory (disk : Disk Program) (path : Path) : Except OsFault (Disk Program) := do
  match ← disk.target path with
  | (_, none) => .error .alreadyThere
  | (directory, some part) =>
    let location ← within directory part
    match disk.entry? location with
    | some _ => .error .alreadyThere
    | none => return disk.put location .directory

def change (disk : Disk Program) (result : Except OsFault (Disk Program)) :
    Except OsFault Unit × Disk Program :=
  match result with
  | .ok changed => (.ok (), changed)
  | .error fault => (.error fault, disk)

/-- Makes one directory, unless there is one of that name. -/
def haveDirectory (disk : Disk Program) (path : Path) : Except OsFault Unit × Disk Program :=
  if disk.isDirectory path then (.ok (), disk) else disk.change (disk.makeDirectory path)

/-- Makes the first directory of the list, after the others if it cannot do without. Those
that were made stay, also if another cannot be. -/
def haveDirectories (disk : Disk Program) : List Path → Except OsFault Unit × Disk Program
  | [] => (.ok (), disk)
  | path :: outer =>
    match disk.haveDirectory path with
    | (.error .missing, _) =>
      match disk.haveDirectories outer with
      | (.ok (), disk) => disk.haveDirectory path
      | failed => failed
    | settled => settled

/-- Makes a directory and those above it, as far as they are missing. -/
def createDirectories (disk : Disk Program) (path : Path) : Except OsFault Unit × Disk Program :=
  disk.haveDirectories path.ancestors

/-- Removes an entry and all below it. -/
def remove (disk : Disk Program) (path : Path) : Except OsFault (Disk Program) := do
  let (location, _) ← disk.lookup path
  return { disk with entries := disk.entries.filter fun entry => !location.isPrefixOf entry.1 }

/-- The names in a directory, in order. -/
def names (disk : Disk Program) (path : Path) : Except OsFault (List String) := do
  match ← disk.lookup path with
  | (_, .file _) => .error .notDirectory
  | (location, .directory) =>
    let inside := disk.entries.filterMap fun entry =>
      if entry.1.dropLast = location then entry.1.getLast? else none
    return inside.mergeSort fun one other => decide (one ≤ other)

/-- The program that a name starts. A name without a separator is looked up in directories
that hold no programs. -/
def program (disk : Disk Program) (path : Path) : Except OsFault Program := do
  if path.text.toList.contains '/' then
    match ← disk.lookup path with
    | (_, .directory) => .error .forbidden
    | (_, .file file) =>
      if file.runnable then
        match file.program with
        | some program => return program
        | none => .error .notProgram
      else .error .forbidden
  else if path.text = "." || path.text = ".." then .error .forbidden
  else if maxPart < path.text.utf8ByteSize then .error .nameTooLong
  else .error .missing

end Disk

end Formulary

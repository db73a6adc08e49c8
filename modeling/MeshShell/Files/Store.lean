import MeshShell.Files.Path
import MeshShell.Text.Decimal

/-! # Files and directories

A tree of directories and files with their content and permission mode, on a
device that may fail. Every operation either succeeds or tells the cause why it
does not, and what it changed before it failed stays changed.
-/
namespace MeshShell

/-- Where something is: the names from the root, the last one first. -/
abbrev Place := List String

inductive FileEntry
  | directory
  | file (content : Bytes) (mode : Nat)
  deriving DecidableEq, Repr

inductive FileError
  | notFound
  | notDirectory
  | isDirectory
  | alreadyThere
  | nameTooLong
  | busy
  | notPermitted
  | noSpace
  | notKept
  | nulByte
  | invalidUtf8
  deriving DecidableEq, Repr

def FileError.message : FileError → String
  | .notFound => "No such file or directory (os error 2)"
  | .notDirectory => "Not a directory (os error 20)"
  | .isDirectory => "Is a directory (os error 21)"
  | .alreadyThere => "File exists (os error 17)"
  | .nameTooLong => "File name too long (os error 36)"
  | .busy => "Device or resource busy (os error 16)"
  | .notPermitted => "Permission denied (os error 13)"
  | .noSpace => "No space left on device (os error 28)"
  | .notKept => "Input/output error (os error 5)"
  | .nulByte => "file name contained an unexpected NUL byte"
  | .invalidUtf8 => "stream did not contain valid UTF-8"

/-- Whether a file of this mode can be read by its owner, which is who runs this. -/
def mayRead (mode : Nat) : Bool := mode.testBit 8

def mayWrite (mode : Nat) : Bool := mode.testBit 7

/-- What becomes of the bytes that are written to a file. -/
structure Device where
  /-- How many of them there is room for, if not for all. -/
  room : Option Nat
  /-- Whether they are kept for good when this is asked for. -/
  keeps : Bool
  deriving DecidableEq, Repr

namespace Device

def sound : Device := ⟨none, true⟩

/-- The bytes that there is room for. -/
def taken (d : Device) (content : Bytes) : Bytes :=
  match d.room with
  | none => content
  | some n => content.take n

def takesAll (d : Device) (content : Bytes) : Bool :=
  match d.room with
  | none => true
  | some n => content.length ≤ n

end Device

/-- All files, and the directory that relative paths start from. -/
structure Files where
  entries : List (Place × FileEntry)
  current : Place
  device : Device := .sound
  deriving Repr

abbrev FileAction (α : Type) := EStateM FileError Files α

namespace Files

/-- An empty working directory in an otherwise empty tree. -/
def empty : Files :=
  { entries := [(["tmp"], .directory), (["work", "tmp"], .directory)]
    current := ["work", "tmp"] }

def get? (f : Files) : Place → Option FileEntry
  | [] => some .directory
  | place => f.entries.lookup place

def set (f : Files) (place : Place) (entry : FileEntry) : Files :=
  { f with entries := (place, entry) :: f.entries.filter (·.1 ≠ place) }

def erase (f : Files) (place : Place) : Files :=
  { f with entries := f.entries.filter (·.1 ≠ place) }

/-- Takes away what is at a place and everything below it. -/
def eraseTree (f : Files) (place : Place) : Files :=
  { f with entries := f.entries.filter (!place.isSuffixOf ·.1) }

/-- Something can only be in a directory. -/
def enter (f : Files) (place : Place) : Except FileError Unit :=
  match f.get? place with
  | some .directory => .ok ()
  | some (.file ..) => .error .notDirectory
  | none => .error .notFound

/-- One step of a walk. -/
def step (f : Files) (place : Place) (name : String) : Except FileError Place := do
  f.enter place
  if name = "." then return place
  else if name = ".." then return place.tail
  else if 255 < name.utf8ByteSize then throw .nameTooLong
  else return name :: place

/-- The place where a walk begins. -/
def start (f : Files) (path : String) : Except FileError Place :=
  if path.toList.contains '\x00' then .error .nulByte
  else if path.isEmpty then .error .notFound
  else if 4095 < path.utf8ByteSize then .error .nameTooLong
  else .ok (if Path.isAbsolute path then [] else f.current)

/-- The place a path leads to. Only the last name may be missing. -/
def resolve (f : Files) (path : String) : Except FileError Place := do
  (Path.names path).foldlM f.step (← f.start path)

/-- The directory that the last name of a path is in. -/
def directoryOf (f : Files) (path : String) : Except FileError Place := do
  let place ← (Path.names path).dropLast.foldlM f.step (← f.start path)
  f.enter place
  return place

/-- The last name of a path, if it is one that can be given to something new. -/
def newName? (path : String) : Option String :=
  match (Path.names path).getLast? with
  | some "." => none
  | some ".." => none
  | name => name

/-- What is at a path. A slash at the end asks for a directory. -/
def stat (f : Files) (path : String) : Except FileError (Place × FileEntry) := do
  let place ← f.resolve path
  match f.get? place with
  | none => throw .notFound
  | some .directory => return (place, .directory)
  | some entry => if Path.hasTrailingSlash path then throw .notDirectory else return (place, entry)

def hasEntry (f : Files) (path : String) : Bool := (f.stat path).isOk

def isDirectory (f : Files) (path : String) : Bool :=
  match f.stat path with
  | .ok (_, .directory) => true
  | _ => false

def isFile (f : Files) (path : String) : Bool :=
  match f.stat path with
  | .ok (_, .file ..) => true
  | _ => false

/-- What is in a file, whatever its mode is. -/
def read (f : Files) (path : String) : Except FileError Bytes := do
  match ← f.stat path with
  | (_, .directory) => throw .isDirectory
  | (_, .file content _) => return content

/-- What is in a file that may be read. -/
def readPermitted (f : Files) (path : String) : Except FileError Bytes := do
  match ← f.stat path with
  | (_, .directory) => throw .isDirectory
  | (_, .file content mode) => if mayRead mode then return content else throw .notPermitted

def readText (f : Files) (path : String) : Except FileError String := do
  match Utf8.decode? (← f.read path) with
  | some s => return s
  | none => throw .invalidUtf8

/-- The tree with one more directory. -/
def makeDirectory (f : Files) (path : String) : Except FileError Files := do
  let directory ← f.directoryOf path
  match newName? path with
  | none => throw .alreadyThere
  | some name => do
    let place ← f.step directory name
    if (f.get? place).isSome then throw .alreadyThere
    return f.set place .directory

/-- The tree with the given content at a path. A file that was there keeps its mode, a new one
gets the given mode. -/
def write (f : Files) (path : String) (content : Bytes) (mode : Nat) : Except FileError Files := do
  let directory ← f.directoryOf path
  match newName? path with
  | none => throw .isDirectory
  | some name => do
    if Path.hasTrailingSlash path then throw .isDirectory
    let place ← f.step directory name
    match f.get? place with
    | some .directory => throw .isDirectory
    | some (.file _ kept) =>
      if mayWrite kept then return f.set place (.file content kept) else throw .notPermitted
    | none => return f.set place (.file content mode)

/-- The tree with a file moved to another path, where it replaces a file. -/
def moveFile (f : Files) (old new : String) : Except FileError Files := do
  let source ← f.directoryOf old
  let target ← f.directoryOf new
  match newName? old, newName? new with
  | some oldName, some newName => do
    let oldPlace ← f.step source oldName
    match f.get? oldPlace with
    | none => throw .notFound
    | some entry => do
      let newPlace ← f.step target newName
      if Path.hasTrailingSlash old || Path.hasTrailingSlash new then throw .notDirectory
      if f.get? newPlace = some .directory then throw .isDirectory
      if oldPlace = newPlace then return f
      return (f.erase oldPlace).set newPlace entry
  | _, _ => throw .busy

/-- Runs an operation on the tree, which is as before if the operation fails. -/
def modifyWith (operation : Files → Except FileError Files) : FileAction Unit := fun f =>
  match operation f with
  | .ok g => .ok () g
  | .error e => .error e f

def query {α : Type} (operation : Files → Except FileError α) : FileAction α := fun f =>
  match operation f with
  | .ok a => .ok a f
  | .error e => .error e f

/-- Opens a file, which empties it, and writes to it. What there was room for stays written if there
is no room for more. -/
def writeFile (path : String) (content : Bytes) (mode : Nat) : FileAction Unit := fun f =>
  match f.write path (f.device.taken content) mode with
  | .error e => .error e f
  | .ok g => if f.device.takesAll content then .ok () g else .error .noSpace g

/-- Asks the device to keep what was written. -/
def sync : FileAction Unit := fun f => if f.device.keeps then .ok () f else .error .notKept f

/-- One directory of a chain: it is fine if it is there already. -/
def ensureDirectory (path : String) : FileAction Unit := fun f =>
  match f.makeDirectory path with
  | .ok g => .ok () g
  | .error e => if f.isDirectory path then .ok () f else .error e f

/-- A directory with all directories above it, of which `parts` are still left to try. -/
def ensureAbove : Nat → String → FileAction Unit
  | 0, path => ensureDirectory path
  | n + 1, path =>
    if (Path.parts path).isEmpty && !Path.isAbsolute path then pure ()
    else fun f =>
      match f.makeDirectory path with
      | .ok g => .ok () g
      | .error .notFound =>
        match Path.parent? path with
        | some parent => (ensureAbove n parent *> ensureDirectory path) f
        | none => .error .notFound f
      | .error e => if f.isDirectory path then .ok () f else .error e f

/-- Makes a directory and those above it that are missing. -/
def ensureDirectories (path : String) : FileAction Unit :=
  ensureAbove ((Path.parts path).length + 1) path

end Files

end MeshShell

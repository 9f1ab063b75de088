import Checkpointing.Disk.Location
import Checkpointing.Error

/-!
# Disks

A disk is a tree of directories and files, given by what there is at each path.  Its operations
fail where those of a file system do, and change nothing when they fail.

## Main definitions

* `Disk.node?` is the view: what there is at a path.
* `createDirectories`, `writeFile`, `readFile`, `rename`, `removeFile`, `removeDirectory`,
  `removeTree` and `names` are the operations.
* `Disk.listing` shows everything below a directory.
-/

namespace Checkpointing

/-- What there is at a path. -/
inductive Node where
  | directory
  | file (content : Bytes)
deriving Repr, DecidableEq

/-- Why an operation on a disk fails. -/
inductive DiskError where
  | notFound
  | taken
  | notDirectory
  | isDirectory
  | nameTooLong
  | notEmpty
deriving Repr, DecidableEq

/-- The failure in words, with its number. -/
def DiskError.text : DiskError → String
  | notFound => "No such file or directory (os error 2)"
  | taken => "File exists (os error 17)"
  | notDirectory => "Not a directory (os error 20)"
  | isDirectory => "Is a directory (os error 21)"
  | nameTooLong => "File name too long (os error 36)"
  | notEmpty => "Directory not empty (os error 39)"

/-- A failed operation as a storage failure. -/
def DiskError.failure (e : DiskError) : StorageFailure := .of e.text

/-- A tree of directories and files. -/
structure Disk where
  /-- What there is at each path; the working directory and those above it are always there. -/
  nodes : List (Path × Node)
deriving Repr

namespace Disk

/-- The disk with an empty working directory. -/
def empty : Disk := ⟨[]⟩

instance : EmptyCollection Disk := ⟨empty⟩

instance : Inhabited Disk := ⟨empty⟩

/-- What there is at a path. -/
def node? (d : Disk) (p : Path) : Option Node :=
  if p.isAbove then some .directory else d.nodes.lookup p

/-- Puts a file or directory at a path, in place of what was there. -/
def put (d : Disk) (p : Path) (n : Node) : Disk :=
  ⟨(p, n) :: d.nodes.filter fun e => e.1 ≠ p⟩

/-- Leaves nothing at a path. -/
def erase (d : Disk) (p : Path) : Disk := ⟨d.nodes.filter fun e => e.1 ≠ p⟩

/-- Whether there is a file or directory at a path. -/
def isThere (d : Disk) (p : Path) : Bool := (d.node? p).isSome

/-- Whether there is a directory at a path. -/
def isDirectory (d : Disk) (p : Path) : Bool := d.node? p == some .directory

/-- Checks that every name but the last leads into a directory. -/
def walk (d : Disk) (done : Path) : List String → Except DiskError Unit
  | [] => .ok ()
  | [_] => .ok ()
  | name :: rest =>
    match d.node? (done ++ [name]) with
    | none => .error .notFound
    | some (.file _) => .error .notDirectory
    | some .directory => d.walk (done ++ [name]) rest

/-- Why there is nothing at a path. -/
def absence (d : Disk) (p : Path) : DiskError :=
  match d.walk [] p with
  | .error e => e
  | .ok () => .notFound

/-- Creates the directories on the way that are missing. -/
def createFrom (d : Disk) (done : Path) : List String → Except DiskError Disk
  | [] => .ok d
  | name :: rest =>
    match d.node? (done ++ [name]) with
    | none => (d.put (done ++ [name]) .directory).createFrom (done ++ [name]) rest
    | some .directory => d.createFrom (done ++ [name]) rest
    | some (.file _) => .error (if rest.isEmpty then .taken else .notDirectory)

/-- Makes a path a directory, creating all that is missing; a directory that is there stays. -/
def createDirectories (d : Disk) (p : Path) : Except DiskError Disk := d.createFrom [] p

/-- Writes a file, in place of an earlier one; its directory has to be there. -/
def writeFile (d : Disk) (p : Path) (content : Bytes) : Except DiskError Disk :=
  match d.node? p with
  | some .directory => .error .isDirectory
  | some (.file _) => .ok (d.put p (.file content))
  | none =>
    match d.walk [] p with
    | .error e => .error e
    | .ok () => .ok (d.put p (.file content))

/-- The content of a file. -/
def readFile (d : Disk) (p : Path) : Except DiskError Bytes :=
  match d.node? p with
  | some (.file content) => .ok content
  | some .directory => .error .isDirectory
  | none => .error (d.absence p)

/-- Gives a file another path, in place of an earlier file there. -/
def rename (d : Disk) (source target : Path) : Except DiskError Disk :=
  match d.readFile source with
  | .error e => .error e
  | .ok content =>
    match d.writeFile target content with
    | .error e => .error e
    | .ok d => .ok (d.erase source)

/-- Removes a file. -/
def removeFile (d : Disk) (p : Path) : Except DiskError Disk :=
  match d.readFile p with
  | .error e => .error e
  | .ok _ => .ok (d.erase p)

/-- The name under which the second path is an entry of the first. -/
def entryName? : Path → Path → Option String
  | [], [name] => some name
  | a :: p, b :: q => if a = b then entryName? p q else none
  | _, _ => none

/-- The names in a directory, ascending. -/
def names (d : Disk) (p : Path) : Except DiskError (List String) :=
  match d.node? p with
  | some .directory =>
    .ok ((d.nodes.filterMap fun e => entryName? p e.1).mergeSort fun a b => !(b < a))
  | some (.file _) => .error .notDirectory
  | none => .error (d.absence p)

/-- Removes an empty directory. -/
def removeDirectory (d : Disk) (p : Path) : Except DiskError Disk :=
  match d.names p with
  | .error e => .error e
  | .ok [] => .ok (d.erase p)
  | .ok (_ :: _) => .error .notEmpty

/-- Removes a directory with everything below it. -/
def removeTree (d : Disk) (p : Path) : Except DiskError Disk :=
  match d.node? p with
  | some .directory => .ok ⟨d.nodes.filter fun e => !p.isPrefixOf e.1⟩
  | some (.file _) => .error .notDirectory
  | none => .error (d.absence p)

/-- The text of a path, with a slash after a directory. -/
def entryText (p : Path) : Node → String
  | .directory => "/".intercalate p ++ "/"
  | .file _ => "/".intercalate p

/-- Everything below a directory, with the contents of files, in ascending order of the texts. -/
def listing (d : Disk) (p : Path) : List (String × Option Bytes) :=
  ((d.nodes.filter fun e => p.isPrefixOf e.1 && p != e.1).map fun e =>
    (entryText e.1 e.2,
      match e.2 with
      | .directory => none
      | .file content => some content)).mergeSort fun a b => !(b.1 < a.1)

end Disk

end Checkpointing

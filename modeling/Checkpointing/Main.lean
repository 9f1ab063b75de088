import Checkpointing.CommandLine.Program

/-!
# The command line

The outer layer of the program: it reads what a command may look at from the file system into a
disk, runs the program on it, and writes back what has changed.
-/

namespace Checkpointing

namespace FileSystem

/-- The text under which the file system knows a path. -/
def pathText (p : Path) : String := if p = [] then "." else "/".intercalate p

/-- The paths that a written path leads through, in order. -/
def pathsOf (text : String) : List Path :=
  let next (here : Path) (name : String) : Path :=
    if Route.stays name then here else if name = ".." then here.parent else here ++ [name]
  (Route.ofText text).foldl (fun paths name =>
    paths ++ [next (paths.getLastD []) name]) [Route.startOf text]

/-- Whether an entry of a snapshot directory belongs to a snapshot. -/
def isSnapshotEntry (name : String) : Bool :=
  (Directory.idOfName? name).isSome || name.startsWith "savepoint-"

/-- Reads what there is at a path, and below a directory the entries that are wanted, with
everything below them. -/
partial def nodesAt (p : Path) (wanted : String → Bool) : IO (List (Path × Node)) := do
  let place ← IO.FS.realPath (pathText p)
  if ← place.isDir then
    let mut nodes := [(p, Node.directory)]
    for entry in (← place.readDir) do
      if wanted entry.fileName then
        nodes := nodes ++ (← nodesAt (p ++ [entry.fileName]) fun _ => true)
    return nodes
  else return [(p, .file (← IO.FS.readBinFile place).toList)]

/-- Reads what there is on the way of a written path and where it leads to. -/
def nodesTo (text : String) : IO (List (Path × Node)) := do
  let paths := pathsOf text
  let mut nodes := []
  for p in paths.dropLast do
    match ← (nodesAt p fun _ => false).toBaseIO with
    | .ok found => nodes := nodes ++ found
    | .error _ => pure ()
  match ← (nodesAt (paths.getLastD []) isSnapshotEntry).toBaseIO with
  | .ok found => return nodes ++ found
  | .error _ => return nodes

/-- Reads what a command may look at. -/
def load (c : Command) : IO Disk := do
  let texts := match c with
    | .simulate o => o.config.toList ++ [o.dir]
    | .inspect dir _ | .dispose dir _ => [dir]
  let mut disk : Disk := ∅
  for text in texts do
    for (p, n) in ← nodesTo text do
      if !disk.isThere p then disk := disk.put p n
  return disk

/-- Brings the file system from one disk to another: files first go and then directories, and
directories come before what lies in them. -/
def store (old new : Disk) : IO Unit := do
  let depth (e : Path × Node) := e.1.length
  let gone := old.nodes.filter fun e => !new.isThere e.1
  for (p, n) in gone.mergeSort fun a b => depth b ≤ depth a do
    match n with
    | .file _ => IO.FS.removeFile (pathText p)
    | .directory => IO.FS.removeDirAll (pathText p)
  let changed := new.nodes.filter fun e => old.node? e.1 != some e.2
  for (p, n) in changed.mergeSort fun a b => depth a ≤ depth b do
    match n with
    | .directory => IO.FS.createDirAll (pathText p)
    | .file content => IO.FS.writeBinFile (pathText p) content.toByteArray

end FileSystem

end Checkpointing

open Checkpointing in
/-- Runs the program with its arguments. -/
def main (arguments : List String) : IO UInt32 := do
  let disk ← match Command.parse? arguments with
    | some c => FileSystem.load c
    | none => pure ∅
  let result := Program.run arguments disk
  FileSystem.store disk result.disk
  IO.print result.output
  IO.eprint result.complaint
  return UInt32.ofNat result.code

import Checkpointing.Decimal.Count
import Checkpointing.Disk.Route
import Checkpointing.Format.Record

/-!
# Snapshot directories

How snapshots lie on a disk.  Below a base directory, `chk-<id>` holds the record of a snapshot and
the states of its participants, one file for each; a savepoint's states lie in `savepoint-<id>`,
which outlives the snapshot's own directory.

## Main definitions

* `Disk.carryOut` does a list of disk operations up to the first that fails.
* `Directory.persist`, `load`, `discard` and `address` keep the states of participants.
* `Directory.saveRecord`, `dropRecord` and `readRecords` keep the records; a record is written
  beside its place and then moved there, so a record in its place is never a partial one.
* `Directory.readWritten` reads the records below the directory of a written path.
-/

namespace Checkpointing

/-- One operation on a disk, and what is being attempted with it if a failure is to say so. -/
structure DiskStep where
  attempt : Option String
  run : Disk → Except DiskError Disk

/-- The failure of a step, seen from its attempt. -/
def DiskStep.failure (s : DiskStep) (e : DiskError) : StorageFailure :=
  match s.attempt with
  | none => e.failure
  | some attempt => e.failure.within attempt

/-- Does steps in order up to the first that fails; what was done before stays. -/
def Disk.carryOut (d : Disk) : List DiskStep → Disk × Option StorageFailure
  | [] => (d, none)
  | s :: rest =>
    match s.run d with
    | .error e => (d, some (s.failure e))
    | .ok d => d.carryOut rest

namespace Directory

/-! ### Layout -/

/-- The directory of a snapshot. -/
def snapshot (base : Location) (id : Nat) : Location := base.child s!"chk-{id}"

/-- The directory of a savepoint's states. -/
def savepoint (base : Location) (id : Nat) : Location := base.child s!"savepoint-{id}"

/-- The file of a snapshot's record. -/
def record (base : Location) (id : Nat) : Location := (snapshot base id).child "_metadata"

/-- The name of the file with the state of a participant. -/
def stateName (run : TaskRun) : String := s!"task-{run.vertex}-{run.subtask}-{run.attempt}.bin"

/-- Where the states of a snapshot lie: in the savepoint's directory if there is one. -/
def states (d : Disk) (base : Location) (id : Nat) : Location :=
  if d.isThereAt (savepoint base id) then savepoint base id else snapshot base id

/-- The snapshot id in the name of a directory. -/
def idOfName? (name : String) : Option Nat :=
  match name.toList with
  | 'c' :: 'h' :: 'k' :: '-' :: digits => Decimal.count? Word.max64 digits
  | _ => none

/-! ### States of participants -/

/-- Writes the state of a participant, creating the directory for it. -/
def persist (d : Disk) (base : Location) (id : Nat) (run : TaskRun) (state : Bytes) :
    Disk × Option StorageFailure :=
  let dir := states d base id
  d.carryOut [
    ⟨s!"failed to create checkpoint dir {dir.shown}", fun d => d.createDirectoriesAt dir⟩,
    ⟨"write checkpoint task state failed",
      fun d => (d.reach (dir.child (stateName run))).bind fun p => d.writeFile p state⟩]

/-- Reads the state of a participant. -/
def load (d : Disk) (base : Location) (id : Nat) (run : TaskRun) : Except StorageFailure Bytes :=
  let file := (states d base id).child (stateName run)
  match (d.reach file).bind d.readFile with
  | .ok state => .ok state
  | .error e => .error (e.failure.within s!"read checkpoint task state {file.shown} failed")

/-- Removes a directory with everything in it, if it is there. -/
def removeIfThere (dir : Location) : DiskStep :=
  ⟨s!"failed to remove {dir.shown}",
    fun d => if d.isThereAt dir then (d.reach dir).bind d.removeTree else .ok d⟩

/-- Removes everything of a snapshot. -/
def discard (d : Disk) (base : Location) (id : Nat) : Disk × Option StorageFailure :=
  d.carryOut [removeIfThere (snapshot base id), removeIfThere (savepoint base id)]

/-- The address of a savepoint, whose directory is created for it; nothing else has one. -/
def address (d : Disk) (base : Location) (id : Nat) (policy : SnapshotPolicy) :
    Disk × Option String :=
  if policy.isSavepoint then
    match d.createDirectoriesAt (savepoint base id) with
    | .ok d => (d, some (savepoint base id).shown)
    | .error _ => (d, none)
  else (d, none)

/-! ### Records -/

/-- Writes a snapshot's record. -/
def saveRecord (d : Disk) (base : Location) (s : Snapshot) : Disk × Option StorageFailure :=
  let dir := snapshot base s.id
  let draft := dir.child "_metadata.tmp"
  d.carryOut [
    ⟨s!"failed to create checkpoint dir {dir.shown}", fun d => d.createDirectoriesAt dir⟩,
    ⟨"write checkpoint metadata failed",
      fun d => (d.reach draft).bind fun p => d.writeFile p (Record.snapshot.encode s)⟩,
    ⟨"publish checkpoint metadata failed",
      fun d => (d.reach draft).bind fun p => (d.reach (record base s.id)).bind (d.rename p)⟩]

/-- Removes a directory if there is nothing in it. -/
def removeIfEmpty (d : Disk) (p : Path) : Except DiskError Disk :=
  match d.names p with
  | .error e => .error e
  | .ok [] => d.removeDirectory p
  | .ok (_ :: _) => .ok d

/-- Removes a snapshot's record, and its directory if nothing else is left there. -/
def dropRecord (d : Disk) (base : Location) (id : Nat) : Disk × Option StorageFailure :=
  let file := record base id
  let dir := snapshot base id
  d.carryOut [
    ⟨s!"failed to remove {file.shown}",
      fun d => if d.isThereAt file then (d.reach file).bind d.removeFile else .ok d⟩,
    ⟨none, fun d => if d.isThereAt dir then (d.reach dir).bind (removeIfEmpty d) else .ok d⟩]

/-- Reads the record in a directory; there is none if no snapshot was completed there. -/
def readRecord (d : Disk) (dir : Location) : Except StorageFailure (Option Snapshot) :=
  let file := dir.child "_metadata"
  if d.isThereAt file then
    match (d.reach file).bind d.readFile with
    | .error e => .error (e.failure.within s!"read checkpoint metadata {file.shown} failed")
    | .ok bytes =>
      match Record.snapshot.read? bytes with
      | none =>
        .error ((StorageFailure.of "malformed record").within
          s!"deserialize checkpoint metadata {file.shown} failed")
      | some s => .ok (some s)
  else .ok none

/-- Reads the records of the directories with the given names; only directories that are named for
a snapshot count. -/
def readRecordsOf (d : Disk) (base : Location) : List String → Except StorageFailure (List Snapshot)
  | [] => .ok []
  | name :: names =>
    if (idOfName? name).isSome && d.isDirectory (base.child name).path then
      match readRecord d (base.child name) with
      | .error e => .error e
      | .ok found => (readRecordsOf d base names).map fun rest => found.toList ++ rest
    else readRecordsOf d base names

/-- Reads all records below a base directory, in ascending order of their snapshots' ids. -/
def readRecords (d : Disk) (base : Location) : Except StorageFailure (List Snapshot) :=
  match (d.reach base).bind d.names with
  | .error e => .error (e.failure.within s!"read_dir failed for {base.shown}")
  | .ok names => (readRecordsOf d base names).map fun l => l.mergeSort fun a b => a.id ≤ b.id

/-- Reads all records below the directory to which a written path leads. -/
def readWritten (d : Disk) (text : String) : Except StorageFailure (List Snapshot) :=
  match d.locate text with
  | .error e => .error (e.failure.within s!"read_dir failed for {text}")
  | .ok base => readRecords d base

end Directory

end Checkpointing

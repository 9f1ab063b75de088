import Checkpointing.Storage.Directory

/-!
# Media

Where snapshots are kept: in memory, where the states of participants are lost with the process and
there are no records, or in a directory on a disk, where both stay.

## Main definitions

* `Medium`, with `persist`, `load`, `discard` and `address` for the states of participants and
  `saveRecord` and `dropRecord` for the records.
* `Medium.openDirectory` makes a directory a medium.
-/

namespace Checkpointing

/-- Where snapshots are kept. -/
inductive Medium where
  /-- The states of each checkpoint's participants, in memory. -/
  | memory (states : Table Nat Handles)
  /-- A base directory on a disk. -/
  | directory (base : Location) (disk : Disk)

namespace Medium

/-- Keeps the state of a participant. -/
def persist (m : Medium) (id : Nat) (run : TaskRun) (state : Bytes) :
    Medium × Option StorageFailure :=
  match m with
  | memory states =>
    (memory (states.insert id (((states.find? id).getD ∅).insert run state)), none)
  | directory base disk =>
    let (disk, failure) := Directory.persist disk base id run state
    (directory base disk, failure)

/-- The state that a participant handed over. -/
def load (m : Medium) (id : Nat) (run : TaskRun) : Except StorageFailure Bytes :=
  match m with
  | memory states =>
    match (states.find? id).bind fun handles => handles.find? run with
    | some state => .ok state
    | none => .error (.of s!"task state not found for checkpoint {id}")
  | directory base disk => Directory.load disk base id run

/-- Throws away everything of a checkpoint. -/
def discard (m : Medium) (id : Nat) : Medium × Option StorageFailure :=
  match m with
  | memory states => (memory (states.erase id), none)
  | directory base disk =>
    let (disk, failure) := Directory.discard disk base id
    (directory base disk, failure)

/-- The address under which users find a savepoint. -/
def address (m : Medium) (id : Nat) (policy : SnapshotPolicy) : Medium × Option String :=
  match m with
  | memory states =>
    (memory states, if policy.isSavepoint then some s!"memory://savepoint-{id}" else none)
  | directory base disk =>
    let (disk, address) := Directory.address disk base id policy
    (directory base disk, address)

/-- Keeps a snapshot's record; memory has no records. -/
def saveRecord (m : Medium) (s : Snapshot) : Medium × Option StorageFailure :=
  match m with
  | memory states => (memory states, none)
  | directory base disk =>
    let (disk, failure) := Directory.saveRecord disk base s
    (directory base disk, failure)

/-- Removes a snapshot's record. -/
def dropRecord (m : Medium) (id : Nat) : Medium × Option StorageFailure :=
  match m with
  | memory states => (memory states, none)
  | directory base disk =>
    let (disk, failure) := Directory.dropRecord disk base id
    (directory base disk, failure)

/-- The records that the medium keeps, in ascending order of their ids. -/
def records (m : Medium) : Except StorageFailure (List Snapshot) :=
  match m with
  | memory _ => .ok []
  | directory base disk => Directory.readRecords disk base

/-- Makes the directory of a written path a medium, creating it if it is missing.  A failure comes
with the disk as it leaves it. -/
def openDirectory (text : String) (disk : Disk) : Except (Disk × StorageFailure) Medium :=
  let unopened (e : DiskError) :=
    e.failure.within s!"failed to create checkpoint storage directory {text}"
  match disk.ensureRoute text with
  | (disk, some e) => .error (disk, unopened e)
  | (disk, none) =>
    match disk.locate text with
    | .ok base => .ok (directory base disk)
    | .error e => .error (disk, unopened e)

/-- Makes sure that the base directory of the records is there. -/
def prepare (m : Medium) : Except StorageFailure Medium :=
  match m with
  | memory states => .ok (memory states)
  | directory base disk =>
    match disk.createDirectoriesAt base with
    | .ok disk => .ok (directory base disk)
    | .error e =>
      .error (e.failure.within s!"failed to create checkpoint store directory {base.shown}")

/-- The checkpoints of which memory holds states. -/
def heldIds (m : Medium) : List Nat :=
  match m with
  | memory states => states.keys
  | directory .. => []

/-- The disk that the medium lies on. -/
def disk? (m : Medium) : Option Disk :=
  match m with
  | memory _ => none
  | directory _ disk => some disk

/-- The same medium after changes to its disk from outside. -/
def withDisk (m : Medium) (disk : Disk) : Medium :=
  match m with
  | memory states => memory states
  | directory base _ => directory base disk

end Medium

end Checkpointing

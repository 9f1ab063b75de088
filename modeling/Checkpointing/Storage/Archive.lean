import Checkpointing.Storage.Retention
import Checkpointing.Storage.Vault

/-!
# Archives

An archive registers completed snapshots and enforces retention: what is given up is thrown away
through the vault.  In a directory every registered snapshot has its record on the disk, so that
the next run finds it; a snapshot whose discard failed keeps its record too.

## Main definitions

* `Archive.add`, `relabel`, `remove` and `close` change what is registered; each answers the events
  that it caused.
* `Archive.open?` registers what the records of a medium tell, `Archive.openDirectory` makes a
  medium of a directory for it.
-/

namespace Checkpointing

/-- Registered snapshots together with the vault that holds their data. -/
structure Archive where
  vault : Vault
  retention : Retention

namespace Archive

/-- The registered snapshots, ascending by id. -/
def snapshots (a : Archive) : List Snapshot := a.retention.live

/-- The only snapshot that a job is restored from by itself: the one with the greatest id. -/
def latest? (a : Archive) : Option Snapshot := a.retention.latest?

/-- Registers the snapshots that the records of a vault's medium tell.  Of two records with one id
neither is taken for the other. -/
def open? (vault : Vault) (maxRetained : Nat) : Except StorageFailure Archive :=
  match vault.medium.prepare with
  | .error e => .error e
  | .ok medium =>
    match medium.records with
    | .error e => .error e
    | .ok found =>
      match (Retention.empty maxRetained).insertAll? found with
      | .error e => .error (.of e.message)
      | .ok retention => .ok ⟨{ vault with medium := medium }, retention⟩

/-- Opens the archive in the directory of a written path, whose storage refuses no request.  A
failure comes with the disk as it leaves it. -/
def openDirectory (text : String) (maxRetained : Nat) (disk : Disk) :
    Except (Disk × StorageFailure) Archive :=
  match Medium.openDirectory text disk with
  | .error failed => .error failed
  | .ok medium =>
    match open? (.of medium .none) maxRetained with
    | .error f => .error ((medium.disk?).getD disk, f)
    | .ok archive => .ok archive

/-- The medium without the records of the given snapshots; a record that cannot be removed
stays. -/
def dropRecords (m : Medium) (gone : List Snapshot) : Medium :=
  gone.foldl (fun m s => (m.dropRecord s.id).1) m

/-- Gives up what retention no longer keeps. -/
def subsume (a : Archive) : Archive × List Event × List Nat :=
  let (gone, kept) := a.retention.subsume
  let swept := a.vault.sweep (fun _ => true) gone
  ({ vault := { swept.vault with medium := dropRecords swept.vault.medium swept.discarded }
     retention := { a.retention with live := kept, backlog := a.retention.backlog ++ swept.kept } },
    swept.events, gone.map (·.id))

/-- Registers a snapshot and enforces retention; answers the ids that were given up for it. -/
def add (a : Archive) (s : Snapshot) : Archive × List Event × Except SnapshotError (List Nat) :=
  if a.retention.contains s.id then (a, [], .error (.alreadyRegistered s.id))
  else
    match a.vault.medium.saveRecord s with
    | (medium, some failure) =>
      ({ a with vault := { a.vault with medium := medium } }, [], .error (.storage failure))
    | (medium, none) =>
      match a.retention.insert? s with
      | .error e => ({ a with vault := { a.vault with medium := medium } }, [], .error e)
      | .ok retention =>
        let (a, events, gone) :=
          subsume { vault := { a.vault with medium := medium }, retention := retention }
        (a, events, .ok gone)

/-- Gives a registered snapshot another policy for the life of this archive; its record keeps the
policy it was written with. -/
def relabel (a : Archive) (id : Nat) (policy : SnapshotPolicy) : Archive × Option Snapshot :=
  let retention := a.retention.relabel id policy
  ({ a with retention := retention }, retention.find? id)

/-- Unregisters a snapshot without throwing its data away; its record goes. -/
def remove (a : Archive) (id : Nat) : Archive × Except SnapshotError (Option Snapshot) :=
  match a.retention.find? id with
  | none => (a, .ok none)
  | some s =>
    let (medium, failure) := a.vault.medium.dropRecord id
    let a : Archive :=
      { vault := { a.vault with medium := medium }, retention := a.retention.remove id }
    match failure with
    | none => (a, .ok (some s))
    | some failure => (a, .error (.storage failure))

/-- Throws away the whole backlog and every snapshot that goes when the job ends in `status`.  All
is attempted; what fails is kept and reported. -/
def close (a : Archive) (status : JobStatus) : Archive × List Event × Except SnapshotError Unit :=
  let old := a.vault.sweep (fun _ => true) a.retention.backlog
  let new := old.vault.sweep (fun s => s.policy.discard.onStatus status) a.retention.live
  let failures := (old.failures ++ new.failures).map fun (id, f) =>
    SnapshotError.undiscarded id f.text
  ({ vault := { new.vault with
       medium := dropRecords new.vault.medium (old.discarded ++ new.discarded) }
     retention := { a.retention with live := new.kept, backlog := old.kept } },
    old.events ++ new.events,
    if failures.isEmpty then .ok () else .error (.discardFailures failures))

end Archive

end Checkpointing

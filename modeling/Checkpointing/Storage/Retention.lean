import Checkpointing.Snapshot

/-!
# Retention

Which completed snapshots are kept.  Snapshots that are no longer needed are given up oldest first
until the cap holds; savepoints neither count nor are given up, and the newest snapshot stays.
What could not be thrown away waits in a backlog.

## Main definitions

* `Retention`, with `latest?`, `find?`, `insert?`, `relabel` and `remove`.
* `Retention.subsume` divides the live snapshots into those to give up and those to keep.
-/

namespace Checkpointing

/-- The snapshots that are kept. -/
structure Retention where
  /-- How many snapshots other than savepoints are to be kept. -/
  cap : Nat
  /-- The registered snapshots, ascending by id. -/
  live : List Snapshot
  /-- Snapshots that were given up and still have to be thrown away. -/
  backlog : List Snapshot
deriving Repr, DecidableEq

namespace Retention

/-- No snapshots yet; at least one is going to be kept. -/
def empty (maxRetained : Nat) : Retention := ⟨max maxRetained 1, [], []⟩

/-- The registered ids, ascending. -/
def ids (r : Retention) : List Nat := r.live.map (·.id)

/-- The snapshot with the greatest id. -/
def latest? (r : Retention) : Option Snapshot := r.live.getLast?

/-- The registered snapshot of an id. -/
def find? (r : Retention) (id : Nat) : Option Snapshot := r.live.find? fun s => s.id == id

/-- Whether an id is registered. -/
def contains (r : Retention) (id : Nat) : Bool := r.live.any fun s => s.id == id

/-- Puts a snapshot in front of the first one with a greater id. -/
def place (s : Snapshot) : List Snapshot → List Snapshot
  | [] => [s]
  | t :: rest => if s.id < t.id then s :: t :: rest else t :: place s rest

/-- Registers a snapshot, whose id must not be registered. -/
def insert? (r : Retention) (s : Snapshot) : Except SnapshotError Retention :=
  if r.contains s.id then .error (.alreadyRegistered s.id)
  else .ok { r with live := place s r.live }

/-- Registers snapshots one after the other. -/
def insertAll? (r : Retention) : List Snapshot → Except SnapshotError Retention
  | [] => .ok r
  | s :: rest => (r.insert? s).bind fun r => r.insertAll? rest

/-- Gives the registered snapshot of an id another policy. -/
def relabel (r : Retention) (id : Nat) (policy : SnapshotPolicy) : Retention :=
  { r with live := r.live.map fun s => if s.id = id then { s with policy := policy } else s }

/-- Unregisters the snapshot of an id. -/
def remove (r : Retention) (id : Nat) : Retention :=
  { r with live := r.live.eraseP fun s => s.id == id }

/-- How many snapshots count against the cap. -/
def counted (r : Retention) : Nat := r.live.countP fun s => !s.isSavepoint

/-- Whether a snapshot may be given up while `newest` is the greatest registered id. -/
def mayGo (newest : Option Nat) (s : Snapshot) : Bool :=
  !s.isSavepoint && s.policy.discard.subsumed && some s.id != newest

/-- Divides snapshots into the first `excess` that may go and the others. -/
def divide (newest : Option Nat) : Nat → List Snapshot → List Snapshot × List Snapshot
  | _, [] => ([], [])
  | 0, l => ([], l)
  | excess + 1, s :: rest =>
    if mayGo newest s then
      let (gone, kept) := divide newest excess rest
      (s :: gone, kept)
    else
      let (gone, kept) := divide newest (excess + 1) rest
      (gone, s :: kept)

/-- The snapshots to give up, oldest first, and those to keep. -/
def subsume (r : Retention) : List Snapshot × List Snapshot :=
  divide (r.latest?.map (·.id)) (r.counted - r.cap) r.live

end Retention

end Checkpointing

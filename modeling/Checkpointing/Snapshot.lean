import Checkpointing.Policy

/-!
# Snapshots

A completed checkpoint leaves a snapshot: the state that each participant handed over, the policy
it was taken under and when.  `SnapshotInfo` is the summary that is given to whoever asked for it.
-/

namespace Checkpointing

/-- A completed checkpoint. -/
structure Snapshot where
  id : Nat
  policy : SnapshotPolicy
  triggeredAt : Int
  completedAt : Int
  /-- The state of every participant. -/
  handles : Handles
  /-- Where users find a savepoint, if storage gave it an address. -/
  pointer : Option String
deriving Repr, DecidableEq

/-- The summary of a snapshot. -/
structure SnapshotInfo where
  id : Nat
  policy : SnapshotPolicy
  triggeredAt : Int
  completedAt : Int
  /-- How many participants handed over their state. -/
  tasks : Nat
  pointer : Option String
deriving Repr, DecidableEq

namespace Snapshot

/-- The snapshot's summary. -/
def info (s : Snapshot) : SnapshotInfo where
  id := s.id
  policy := s.policy
  triggeredAt := s.triggeredAt
  completedAt := s.completedAt
  tasks := s.handles.size
  pointer := s.pointer

/-- Whether the snapshot was taken for a user. -/
def isSavepoint (s : Snapshot) : Bool := s.policy.isSavepoint

/-- How long the checkpoint took, in milliseconds. -/
def duration? (s : Snapshot) : Except Overflow Int :=
  Word.difference? s.completedAt s.triggeredAt

end Snapshot

end Checkpointing

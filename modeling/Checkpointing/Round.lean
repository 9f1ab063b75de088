import Checkpointing.Event

/-!
# Rounds

A round is a checkpoint under way: it collects one handle from every participant and settles once,
as completed or as aborted.  Its participants are fixed when it starts.

## Main definitions

* `Round.start` opens a round, `Round.acknowledge` records a participant's handle.
* `Round.complete?` and `Round.abort?` settle it; they answer `none` when there is nothing to
  settle.  A `Settlement` is what the outside hears of it: the calls to the listeners, and the
  outcome for the latest future that was handed out.
-/

namespace Checkpointing

/-- Where a round stands. -/
inductive Phase where
  | inProgress
  | completed
  | aborted (reason : SnapshotError)
deriving Repr

namespace Phase

/-- The phase's name. -/
def name : Phase → String
  | inProgress => "InProgress"
  | completed => "Completed"
  | aborted _ => "Aborted"

/-- Whether the round can still settle. -/
def isInProgress : Phase → Bool
  | inProgress => true
  | _ => false

/-- Why the round was aborted. -/
def failure? : Phase → Option SnapshotError
  | aborted reason => some reason
  | _ => none

@[simp]
theorem isInProgress_iff {p : Phase} : p.isInProgress = true ↔ p = inProgress := by
  cases p <;> simp [isInProgress]

end Phase

/-- What an acknowledgment did. -/
inductive AckResult where
  /-- It was recorded; others are still owed. -/
  | accepted
  /-- The same run had acknowledged before. -/
  | alreadyAcknowledged
  /-- It was recorded and was the last one owed. -/
  | completes
  /-- The run takes no part, or the round is settled. -/
  | unknownTask
deriving Repr, DecidableEq

/-- The result's name. -/
def AckResult.name : AckResult → String
  | accepted => "Accepted"
  | alreadyAcknowledged => "AlreadyAcknowledged"
  | completes => "Completes"
  | unknownTask => "UnknownTask"

/-- A checkpoint under way. -/
structure Round where
  id : Nat
  policy : SnapshotPolicy
  triggeredAt : Int
  /-- The participants, ascending and each once. -/
  expected : List TaskRun
  /-- The handles of those who have acknowledged. -/
  acked : Handles
  phase : Phase
  /-- Who is told how the round ends, in this order. -/
  listeners : List Listener
  /-- How many futures for the outcome were handed out. -/
  futures : Nat
  /-- The future that will hear the outcome: the latest one, until the round settles. -/
  waiting : Option Nat
deriving Repr

/-- What the outside hears when a round settles. -/
structure Settlement where
  /-- Which listener is told what, one after the other. -/
  calls : List (Listener × Notice)
  /-- The future that learns the outcome, if one was taken. -/
  delivery : Option (Nat × Outcome)
deriving Repr

namespace Round

/-- Opens a round with the given participants and listeners. -/
def start (id : Nat) (policy : SnapshotPolicy) (time : Int) (participants : List TaskRun)
    (listeners : List Listener) : Round where
  id := id
  policy := policy
  triggeredAt := time
  expected := TaskRun.sortDistinct participants
  acked := ∅
  phase := .inProgress
  listeners := listeners
  futures := 0
  waiting := none

/-- Hands out a future; from now on it and no earlier one hears the outcome. -/
def takeFuture (r : Round) : Round := { r with futures := r.futures + 1, waiting := some r.futures }

/-- Whether the round can still settle. -/
def isInProgress (r : Round) : Bool := r.phase.isInProgress

/-- Whether every participant has acknowledged. -/
def isFull (r : Round) : Bool := r.acked.size == r.expected.length

/-- Whether the run takes part. -/
def expects (r : Round) (run : TaskRun) : Bool := r.expected.contains run

/-- Whether the run has acknowledged. -/
def hasAck (r : Round) (run : TaskRun) : Bool := r.acked.contains run

/-- Whether the run takes part and still owes its acknowledgment. -/
def awaits (r : Round) (run : TaskRun) : Bool := r.expects run && !r.hasAck run

/-- The participants that still owe an acknowledgment, ascending. -/
def owed (r : Round) : List TaskRun := r.expected.filter fun run => !r.hasAck run

/-- Records a participant's handle; only its first one counts. -/
def acknowledge (r : Round) (run : TaskRun) (state : Bytes) : Round × AckResult :=
  if !r.isInProgress || !r.expects run then (r, .unknownTask)
  else if r.hasAck run then (r, .alreadyAcknowledged)
  else
    let r := { r with acked := r.acked.insert run state }
    (r, if r.isFull then .completes else .accepted)

/-- The snapshot that the handles collected so far make. -/
def snapshot (r : Round) (completedAt : Int) (pointer : Option String) : Snapshot where
  id := r.id
  policy := r.policy
  triggeredAt := r.triggeredAt
  completedAt := completedAt
  handles := r.acked
  pointer := pointer

/-- The outcome for the future that waits, if one does. -/
def deliver (r : Round) (outcome : Outcome) : Option (Nat × Outcome) :=
  r.waiting.map fun future => (future, outcome)

/-- Settles a round that has all its handles; the snapshot is stored already. -/
def complete? (r : Round) (info : SnapshotInfo) : Option (Round × Settlement) :=
  if r.isInProgress && r.isFull then
    some ({ r with phase := .completed, waiting := none },
      { calls := (Notice.completed r.id r.triggeredAt info.completedAt).tell r.listeners
        delivery := r.deliver (.ok info) })
  else none

/-- Settles a round without a snapshot; the handles collected so far are let go. -/
def abort? (r : Round) (reason : SnapshotError) : Option (Round × Settlement) :=
  if r.isInProgress then
    some ({ r with phase := .aborted reason, acked := ∅, waiting := none },
      { calls := (Notice.aborted r.id reason).tell r.listeners
        delivery := r.deliver (.error reason) })
  else none

/-- The round in words. -/
def description (r : Round) : String :=
  s!"PendingCheckpoint \x7b checkpoint_id: {r.id}, properties: {r.policy.description}, " ++
  s!"trigger_timestamp: {r.triggeredAt}, expected: {r.expected.length}, " ++
  s!"acknowledged: {r.acked.size}, state: {r.phase.name} \x7d"

end Round

end Checkpointing

import Checkpointing.Snapshot

/-!
# Events

What the coordinator tells the outside, in the order in which it happens.

## Main definitions

* `Notice` goes to the listeners of checkpoints, `Signal` to tasks.
* `StorageCall` is a request to the storage of task state, made or refused.
* `Event` joins these with the failure of the job and the outcome that a requester waits for.
-/

namespace Checkpointing

/-- How a checkpoint ended: with a snapshot or with the reason why there is none. -/
abbrev Outcome := Except SnapshotError SnapshotInfo

/-- Who is told what becomes of checkpoints, by name. -/
abbrev Listener := String

/-- What listeners hear of a checkpoint. -/
inductive Notice where
  | triggered (id : Nat) (time : Int)
  | completed (id : Nat) (triggeredAt completedAt : Int)
  | aborted (id : Nat) (reason : SnapshotError)
deriving Repr

/-- Tells listeners of a checkpoint, one after the other. -/
def Notice.tell (n : Notice) (listeners : List Listener) : List (Listener × Notice) :=
  listeners.map fun listener => (listener, n)

/-- What a task is told. -/
inductive Signal where
  /-- Take part in a checkpoint. -/
  | trigger (run : TaskRun) (id : Nat) (time : Int) (policy : SnapshotPolicy)
  /-- The checkpoint is over without a snapshot. -/
  | abort (run : TaskRun) (id : Nat) (reason : SnapshotError)
  /-- The checkpoint has its snapshot. -/
  | complete (run : TaskRun) (id : Nat)
deriving Repr

namespace Signal

/-- The run that the signal is for. -/
def run : Signal → TaskRun
  | trigger r .. | abort r .. | complete r _ => r

/-- The checkpoint that the signal is about. -/
def id : Signal → Nat
  | trigger _ i .. | abort _ i _ | complete _ i => i

end Signal

/-- A request to the storage of task state. -/
inductive StorageCall where
  /-- Keep the state of one participant. -/
  | persist (id : Nat) (run : TaskRun) (state : Bytes)
  /-- Throw away a snapshot that is no longer retained. -/
  | discard (id : Nat)
  /-- Throw away whatever there is of a checkpoint. -/
  | cleanup (id : Nat)
deriving Repr, DecidableEq

/-- The checkpoint that the request is about. -/
def StorageCall.id : StorageCall → Nat
  | persist i .. | discard i | cleanup i => i

/-- What happens while the coordinator handles one request. -/
inductive Event where
  /-- Everyone who listens to the coordinator is told. -/
  | notice (n : Notice)
  | signal (s : Signal)
  /-- A request to storage; a refused one had no effect. -/
  | storage (call : StorageCall) (refused : Bool)
  /-- The job is failed after this many failures in a row. -/
  | failJob (failures : Nat) (reason : SnapshotError)
  /-- Whoever waits for the checkpoint learns how it ended. -/
  | resolved (id : Nat) (outcome : Outcome)
deriving Repr

namespace Event

/-- The notice in an event. -/
def notice? : Event → Option Notice
  | notice n => some n
  | _ => none

/-- The signal in an event. -/
def signal? : Event → Option Signal
  | signal s => some s
  | _ => none

end Event

end Checkpointing

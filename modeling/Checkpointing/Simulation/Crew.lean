import Checkpointing.Recovery.FailurePlan
import Checkpointing.Service.Timeline

/-!
# Crews

The simulated tasks of a job.  A worker counts records, one at its start and one after each pause,
and hands its count over as its state: a word of eight bytes.  It follows a failure plan, so it may
decline a checkpoint or fail instead.

## Main definitions

* `Worker` is a simulated task, `Worker.records` its count at an instant.
* `FailurePlan.injected` is the plan of a subtask in a job with given failures.
* `Snapshot.recordsOf` is the count of a subtask in a snapshot.
* `Crew.react` is how all workers react to the signals of a coordinator.
-/

namespace Checkpointing

/-- The vertex of the simulated tasks. -/
def simulatedVertex : Nat := 1

/-! ### State -/

/-- A count of records as a worker hands it over. -/
def countForm : Codec Nat := Codec.word 8

/-- The count in a state of exactly eight bytes, and zero in any other. -/
def countOf (state : Bytes) : Nat :=
  match countForm.decode state with
  | some (n, []) => n
  | _ => 0

/-- The count that a subtask handed over for a snapshot, under whichever attempt; zero if it took no
part. -/
def Snapshot.recordsOf (s : Snapshot) (subtask : Nat) : Nat :=
  match s.handles.entries.find? fun (run, _) => run.slot == ⟨simulatedVertex, subtask⟩ with
  | some (_, state) => countOf state
  | none => 0

/-! ### Failures -/

namespace FailurePlan

/-- The failures of a subtask: the first one fails on the trigger of number `failAfter`, and the
last one declines that of number `declineAfter`. -/
def injections (parallelism : Nat) (failAfter declineAfter : Option Nat) (subtask : Nat) :
    List FailurePlan :=
  ((if subtask = 0 then failAfter else none).map fun n =>
      once (onCall n .userException 0) false).toList ++
    ((if subtask + 1 = parallelism then declineAfter else none).map fun n =>
      onCall n .declineCheckpoint 0).toList

/-- The plan of a subtask with given failures, tracked under the subtask's number so that a restart
does not repeat them. -/
def injected (parallelism : Nat) (failAfter declineAfter : Option Nat) (subtask : Nat) :
    FailurePlan :=
  match injections parallelism failAfter declineAfter subtask with
  | [] => never
  | plans => tracked subtask 0 (anyOf plans)

end FailurePlan

/-! ### Workers -/

/-- A simulated task. -/
structure Worker where
  run : TaskRun
  /-- The count it was restored with. -/
  restored : Nat
  /-- The instant of its start, in nanoseconds. -/
  startedAt : Nat
  plan : FailurePlan
deriving Repr

namespace Worker

/-- The records counted up to an instant, one for each pause of length `pace` after the first. -/
def records (pace : Duration) (w : Worker) (clock : Nat) : Nat :=
  w.restored + 1 + (clock - w.startedAt) / pace

/-- The instant at which the count leaves its word and the worker breaks down.  Without a pause
between records it breaks down at once. -/
def breakdown (pace : Duration) (w : Worker) : Nat :=
  w.startedAt + (Word.max64 - w.restored) * pace

/-- Whether the worker has not broken down at an instant. -/
def isUp (pace : Duration) (clock : Nat) (w : Worker) : Bool := clock < w.breakdown pace

end Worker

/-- The simulated tasks of a job. -/
structure Crew where
  /-- The pause from one record to the next. -/
  pace : Duration
  working : List Worker
  /-- The workers that failed and were not replaced yet. -/
  fallen : List Worker
  ledger : FiringLedger
deriving Repr

namespace Crew

/-- A crew without workers. -/
def empty (pace : Duration) : Crew := ⟨pace, [], [], []⟩

/-- Adds a worker. -/
def hire (c : Crew) (w : Worker) : Crew := { c with working := c.working ++ [w] }

/-- Whether any worker has broken down at an instant. -/
def isBroken (c : Crew) (clock : Nat) : Bool := c.working.any fun w => !w.isUp c.pace clock

/-- When the first worker breaks down. -/
def nextBreakdown? (c : Crew) : Option Nat := (c.working.map (·.breakdown c.pace)).min?

/-- Notes the plan that a worker goes on with. -/
def update (c : Crew) (w : Worker) (plan : FailurePlan) (ledger : FiringLedger) : Crew :=
  { c with
    working := c.working.map fun v => if v.run = w.run then { v with plan := plan } else v
    ledger := ledger }

/-- Takes a worker that failed out of the crew. -/
def drop (c : Crew) (w : Worker) (plan : FailurePlan) (ledger : FiringLedger) : Crew :=
  { c with
    working := c.working.filter fun v => v.run ≠ w.run
    fallen := c.fallen ++ [{ w with plan := plan }]
    ledger := ledger }

/-- A worker's reaction to a trigger: it acknowledges with its count, declines, or fails. -/
def onTrigger (c : Crew) (w : Worker) (id clock : Nat) : Crew × List Message :=
  match w.plan.decide w.run.subtask c.ledger with
  | (plan, ledger, none) =>
    (c.update w plan ledger,
      [.acknowledge id w.run (countForm.encode (w.records c.pace clock))])
  | (plan, ledger, some .declineCheckpoint) =>
    (c.update w plan ledger, [.decline id w.run "alignment buffer overflow"])
  | (plan, ledger, some _) => (c.drop w plan ledger, [.update w.run .failed])

/-- How the workers react to a signal.  A signal to a run that does not work any more is lost. -/
def react : Reaction Crew := fun clock c signal =>
  match signal with
  | .trigger run id .. =>
    match c.working.find? fun w => w.run == run && w.isUp c.pace clock with
    | none => (c, [])
    | some w => c.onTrigger w id clock
  | _ => (c, [])

end Crew

end Checkpointing

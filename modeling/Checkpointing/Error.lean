import Checkpointing.Task

/-!
# Errors

Every way in which a request can be refused, and in which a checkpoint can end without a snapshot.
An error is its cause; its wording is `SnapshotError.message`.

## Main definitions

* `RejectReason` is why a trigger was refused before any task heard of it.
* `StorageFailure` is the chain of what was being attempted, outermost first.
* `SnapshotError.countsAsFailure` singles out the failures that a job tolerates only so often.
-/

namespace Checkpointing

/-- Why a trigger is refused before any task is contacted. -/
inductive RejectReason where
  | tooManyConcurrent
  | minimumPause
  | notAllRunning
  | noTasks
  | shutDown
deriving Repr, DecidableEq, Inhabited

namespace RejectReason

/-- All reasons. -/
def all : List RejectReason := [tooManyConcurrent, minimumPause, notAllRunning, noTasks, shutDown]

/-- The reason's name. -/
def name : RejectReason → String
  | tooManyConcurrent => "TooManyConcurrentCheckpoints"
  | minimumPause => "MinimumTimeBetweenCheckpoints"
  | notAllRunning => "NotAllTasksRunning"
  | noTasks => "NoTasks"
  | shutDown => "CoordinatorShutdown"

/-- The reason in words. -/
def text : RejectReason → String
  | tooManyConcurrent => "too many concurrent checkpoints"
  | minimumPause => "minimum time between checkpoints not elapsed"
  | notAllRunning => "not all required tasks are currently running"
  | noTasks => "no tasks registered"
  | shutDown => "coordinator is shut down"

end RejectReason

/-- A failure below the coordinator: what was being attempted, outermost first, down to its
cause. -/
structure StorageFailure where
  chain : List String
deriving Repr, DecidableEq

namespace StorageFailure

/-- A failure with a single cause. -/
def of (cause : String) : StorageFailure := ⟨[cause]⟩

/-- The same failure, seen from one attempt further out. -/
def within (f : StorageFailure) (attempt : String) : StorageFailure := ⟨attempt :: f.chain⟩

/-- What was being attempted at the outermost level. -/
def outermost (f : StorageFailure) : String := f.chain.headD ""

/-- The whole chain in one line. -/
def text (f : StorageFailure) : String := ": ".intercalate f.chain

end StorageFailure

/-- What is wrong with settings. -/
inductive SettingsFault where
  | zeroInterval
  | zeroTimeout
  | noConcurrency
  | noRetention
  | unknownClaimMode (name : String)
  | other (text : String)
deriving Repr, DecidableEq

/-- The fault in words. -/
def SettingsFault.text : SettingsFault → String
  | zeroInterval => "checkpoint interval must be positive"
  | zeroTimeout => "checkpoint timeout must be positive"
  | noConcurrency => "max_concurrent_checkpoints must be at least 1"
  | noRetention => "max_retained_checkpoints must be at least 1"
  | unknownClaimMode name => s!"unknown recovery claim mode: {name}"
  | other text => text

/-- Why a request failed or a checkpoint ended without a snapshot. -/
inductive SnapshotError where
  | rejected (reason : RejectReason)
  | expired (id : Nat)
  | unreachable (id : Nat) (run : TaskRun)
  | declined (id : Nat) (run : TaskRun) (reason : String)
  | subsumed (id : Nat) (successor : Nat)
  | shutDown (id : Nat)
  | undiscarded (id : Nat) (cause : String)
  | discardFailures (failures : List SnapshotError)
  | unknownRetention (name : String)
  | invalidSettings (fault : SettingsFault)
  | notFound (id : Nat)
  | notSavepoint (id : Nat)
  | alreadyRegistered (id : Nat)
  | storage (failure : StorageFailure)
  | serviceStopped
deriving Repr, BEq, Inhabited

namespace SnapshotError

/-- The name of the kind of error. -/
def name : SnapshotError → String
  | rejected _ => "TriggerRejected"
  | expired _ => "ExpiredBeforeCompletion"
  | unreachable .. => "TaskUnreachable"
  | declined .. => "DeclinedByTask"
  | subsumed .. => "Subsumed"
  | shutDown _ => "CoordinatorShutdown"
  | undiscarded .. => "StorageDiscardFailure"
  | discardFailures _ => "DiscardFailures"
  | unknownRetention _ => "UnknownPolicy"
  | invalidSettings _ => "InvalidConfig"
  | notFound _ => "NotFound"
  | notSavepoint _ => "NotASavepoint"
  | alreadyRegistered _ => "AlreadyRegistered"
  | storage _ => "Storage"
  | serviceStopped => "ServiceStopped"

/-- The error in words. -/
def message : SnapshotError → String
  | rejected reason => s!"checkpoint trigger rejected: {reason.text}"
  | expired id => s!"checkpoint {id} expired before completing"
  | unreachable id run => s!"checkpoint {id} aborted: task {run.text} is no longer running"
  | declined id run reason => s!"checkpoint {id} declined by task {run.text}: {reason}"
  | subsumed id successor => s!"checkpoint {id} subsumed by checkpoint {successor}"
  | shutDown id => s!"checkpoint {id} aborted: coordinator shut down"
  | undiscarded id cause => s!"failed to discard checkpoint {id}: {cause}"
  | discardFailures failures => s!"{failures.length} checkpoint discard(s) failed"
  | unknownRetention name => s!"unknown checkpoint retention policy: {name}"
  | invalidSettings fault => s!"invalid checkpoint configuration: {fault.text}"
  | notFound id => s!"checkpoint {id} not found"
  | notSavepoint id => s!"checkpoint {id} is not a savepoint"
  | alreadyRegistered id => s!"checkpoint {id} is already registered"
  | storage failure => s!"checkpoint storage failure: {failure.text}"
  | serviceStopped => "checkpoint coordinator service stopped"

/-- Failures of the checkpoint itself count against what the job tolerates; being overtaken or shut
down does not. -/
def countsAsFailure : SnapshotError → Bool
  | expired _ | unreachable .. | declined .. | storage _ => true
  | _ => false

/-- The reason, if a trigger was refused. -/
def rejectReason? : SnapshotError → Option RejectReason
  | rejected reason => some reason
  | _ => none

end SnapshotError

end Checkpointing

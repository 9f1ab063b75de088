import Checkpointing.Event

/-!
# Failure budgets

A job tolerates a number of failed checkpoints in a row.  When one more fails the job is failed,
once; a completed checkpoint starts the count afresh.
-/

namespace Checkpointing

/-- The failures in a row, and what is tolerated of them. -/
structure FailureBudget where
  /-- How many failures in a row are tolerated; any number if absent. -/
  tolerable : Option Nat
  /-- Somebody is there to fail the job. -/
  hasHandler : Bool
  /-- The failures since the last completed checkpoint. -/
  failures : Nat
  /-- The job was failed since the last completed checkpoint. -/
  breached : Bool
deriving Repr, DecidableEq

namespace FailureBudget

/-- A budget without failures yet. -/
def fresh (tolerable : Option Nat) (hasHandler : Bool) : FailureBudget :=
  ⟨tolerable, hasHandler, 0, false⟩

/-- The failures exceed what is tolerated. -/
def exceeded (b : FailureBudget) : Bool :=
  match b.tolerable with
  | none => false
  | some n => n < b.failures

/-- Takes note of a checkpoint that ended for the given reason. -/
def failure (b : FailureBudget) (reason : SnapshotError) : FailureBudget × List Event :=
  if reason.countsAsFailure then
    let b := { b with failures := b.failures + 1 }
    if b.exceeded && !b.breached then
      ({ b with breached := true }, if b.hasHandler then [.failJob b.failures reason] else [])
    else (b, [])
  else (b, [])

/-- Takes note of a completed checkpoint. -/
def success (b : FailureBudget) : FailureBudget := { b with failures := 0, breached := false }

end FailureBudget

end Checkpointing

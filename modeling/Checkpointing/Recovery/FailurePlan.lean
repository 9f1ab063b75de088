import Checkpointing.Task

/-!
# Failure plans

Deliberate failures, for trying out how a job recovers.  A plan is asked on every call of a task
whether the task should fail now, and plans are composed from smaller ones.

## Main definitions

* `FailurePlan`, with its state: how many calls were made, and what has fired.
* `FiringLedger` remembers which tracked plans fired for which subtask; it outlives the tasks.
* `FailurePlan.decide` asks a plan.
-/

namespace Checkpointing

/-- How a deliberate failure shows. -/
inductive FailureKind where
  /-- The task fails and is restarted. -/
  | userException
  /-- The task declines the checkpoint and goes on. -/
  | declineCheckpoint
  /-- The process around the task goes away. -/
  | executorLoss
deriving Repr, DecidableEq, Inhabited

namespace FailureKind

/-- All kinds. -/
def all : List FailureKind := [userException, declineCheckpoint, executorLoss]

/-- The kind's name. -/
def name : FailureKind → String
  | userException => "UserException"
  | declineCheckpoint => "DeclineCheckpoint"
  | executorLoss => "TaskExecutorLoss"

end FailureKind

/-- Says, call by call, whether a task should fail. -/
inductive FailurePlan where
  | never
  /-- Fails on the call of the given number, with the calls made so far. -/
  | onCall (number : Nat) (kind : FailureKind) (calls : Nat)
  /-- Fails when the first of several plans does; the later ones are not asked then. -/
  | anyOf (plans : List FailurePlan)
  /-- Fails at most once. -/
  | once (inner : FailurePlan) (fired : Bool)
  /-- Fails at most once for each subtask, as a ledger remembers. -/
  | tracked (id ledger : Nat) (inner : FailurePlan)
deriving Repr, Inhabited

/-- One firing of a tracked plan: the ledger it is noted in, the plan's id and the subtask. -/
structure Firing where
  ledger : Nat
  id : Nat
  subtask : Nat
deriving Repr, DecidableEq

/-- The firings of tracked plans, each noted once. -/
abbrev FiringLedger := List Firing

namespace FiringLedger

/-- Notes a firing. -/
def note (l : FiringLedger) (f : Firing) : FiringLedger := if f ∈ l then l else l ++ [f]

/-- How many plans fired for a subtask, by one ledger. -/
def firedAt (l : FiringLedger) (ledger subtask : Nat) : Nat :=
  l.countP fun f => f.ledger == ledger && f.subtask == subtask

end FiringLedger

namespace FailurePlan

/-- The calls after one more; the count stops at the greatest 32-bit one. -/
def nextCall (calls : Nat) : Nat := min (calls + 1) Word.max32

mutual

/-- Asks a plan on behalf of a subtask.  Answers the plan and the ledger afterwards, and how the
task should fail if it should. -/
def decide (subtask : Nat) (ledger : FiringLedger) :
    FailurePlan → FailurePlan × FiringLedger × Option FailureKind
  | .never => (.never, ledger, none)
  | .onCall number kind calls =>
    (.onCall number kind (nextCall calls), ledger,
      if nextCall calls = number then some kind else none)
  | .anyOf plans =>
    let (plans, ledger, decision) := decideFirst subtask ledger plans
    (.anyOf plans, ledger, decision)
  | .once inner fired =>
    if fired then (.once inner fired, ledger, none)
    else
      let (inner, ledger, decision) := decide subtask ledger inner
      (.once inner decision.isSome, ledger, decision)
  | .tracked id tracker inner =>
    if ⟨tracker, id, subtask⟩ ∈ ledger then (.tracked id tracker inner, ledger, none)
    else
      let (inner, ledger, decision) := decide subtask ledger inner
      (.tracked id tracker inner,
        if decision.isSome then ledger.note ⟨tracker, id, subtask⟩ else ledger, decision)

/-- Asks plans in order up to the first that says to fail. -/
def decideFirst (subtask : Nat) (ledger : FiringLedger) :
    List FailurePlan → List FailurePlan × FiringLedger × Option FailureKind
  | [] => ([], ledger, none)
  | plan :: plans =>
    match decide subtask ledger plan with
    | (plan, ledger, some kind) => (plan :: plans, ledger, some kind)
    | (plan, ledger, none) =>
      let (plans, ledger, decision) := decideFirst subtask ledger plans
      (plan :: plans, ledger, decision)

end

/-- The same plan around another inner one, if it has an inner one. -/
def withInner (plan inner : FailurePlan) : FailurePlan :=
  match plan with
  | .once _ fired => .once inner fired
  | .tracked id tracker _ => .tracked id tracker inner
  | plan => plan

mutual

/-- The plan in words. -/
def text : FailurePlan → String
  | .never => "Never"
  | .onCall number kind _ => s!"{kind.name} (fail after {number} calls)"
  | .anyOf plans => " or ".intercalate (texts plans)
  | .once inner _ => "FailingOnce\x7b" ++ text inner ++ "\x7d"
  | .tracked _ _ inner => "Tracked\x7b" ++ text inner ++ "\x7d"

/-- Several plans in words. -/
def texts : List FailurePlan → List String
  | [] => []
  | plan :: plans => text plan :: texts plans

end

end FailurePlan

end Checkpointing

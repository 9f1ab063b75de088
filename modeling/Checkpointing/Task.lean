import Checkpointing.Table
import Checkpointing.Word

/-!
# Tasks

A job runs each vertex of its dataflow graph as parallel subtasks, and runs a subtask again after
it failed.  What takes part in a checkpoint is one run of one subtask.

## Main definitions

* `Slot` is a subtask, `TaskRun` one run of it; runs are ordered by vertex, subtask and attempt.
* `TaskState` is where a run stands, `JobStatus` how a whole job ended.
-/

namespace Checkpointing

/-- One parallel subtask of a vertex. -/
structure Slot where
  vertex : Nat
  subtask : Nat
deriving Repr, DecidableEq, Inhabited

/-- One run of one subtask.  A restarted subtask runs under the next attempt number, so nothing
that an earlier run sends is taken for its own. -/
structure TaskRun where
  vertex : Nat
  subtask : Nat
  attempt : Nat
deriving Repr, DecidableEq, Inhabited

instance : Ord Slot := ⟨compareLex (compareOn Slot.vertex) (compareOn Slot.subtask)⟩

instance : Std.TransOrd Slot :=
  inferInstanceAs (Std.TransCmp (compareLex (compareOn Slot.vertex) (compareOn Slot.subtask)))

instance : Std.LawfulEqOrd Slot where
  eq_of_compare {a b} h := by
    obtain ⟨v, s⟩ := a
    obtain ⟨w, t⟩ := b
    have h : compareLex (compareOn Slot.vertex) (compareOn Slot.subtask) ⟨v, s⟩ ⟨w, t⟩ = .eq := h
    simp only [compareLex_eq_eq, compareOn, Nat.compare_eq_eq] at h
    rw [h.1, h.2]

instance : Ord TaskRun :=
  ⟨compareLex (compareOn TaskRun.vertex)
    (compareLex (compareOn TaskRun.subtask) (compareOn TaskRun.attempt))⟩

instance : Std.TransOrd TaskRun :=
  inferInstanceAs (Std.TransCmp (compareLex (compareOn TaskRun.vertex)
    (compareLex (compareOn TaskRun.subtask) (compareOn TaskRun.attempt))))

instance : Std.LawfulEqOrd TaskRun where
  eq_of_compare {a b} h := by
    obtain ⟨v, s, i⟩ := a
    obtain ⟨w, t, j⟩ := b
    have h : compareLex (compareOn TaskRun.vertex)
        (compareLex (compareOn TaskRun.subtask) (compareOn TaskRun.attempt))
        ⟨v, s, i⟩ ⟨w, t, j⟩ = .eq := h
    simp only [compareLex_eq_eq, compareOn, Nat.compare_eq_eq] at h
    rw [h.1, h.2.1, h.2.2]

namespace TaskRun

/-- The subtask that this is a run of. -/
def slot (r : TaskRun) : Slot := ⟨r.vertex, r.subtask⟩

/-- The next run of the same subtask. -/
def next? (r : TaskRun) : Except Overflow TaskRun :=
  (Word.next? Word.max32 r.attempt).map fun n => { r with attempt := n }

/-- The written form, such as `vertex_1_0#2` for the third run of subtask 0 of vertex 1. -/
def text (r : TaskRun) : String :=
  s!"vertex_{r.vertex}_{r.subtask}#{r.attempt}"

/-- The runs of a list in ascending order, each once. -/
def sortDistinct (runs : List TaskRun) : List TaskRun :=
  (Table.ofList (runs.map fun r => (r, ()))).keys

end TaskRun

/-- Where a run stands. -/
inductive TaskState where
  | created
  | scheduled
  | deploying
  | initializing
  | running
  | finished
  | canceling
  | canceled
  | failed
deriving Repr, DecidableEq, Inhabited

namespace TaskState

/-- All states, in the order of a run's life. -/
def all : List TaskState :=
  [created, scheduled, deploying, initializing, running, finished, canceling, canceled, failed]

/-- The state's name. -/
def name : TaskState → String
  | created => "Created"
  | scheduled => "Scheduled"
  | deploying => "Deploying"
  | initializing => "Initializing"
  | running => "Running"
  | finished => "Finished"
  | canceling => "Canceling"
  | canceled => "Canceled"
  | failed => "Failed"

/-- The state as reports and logs write it. -/
def text : TaskState → String
  | created => "CREATED"
  | scheduled => "SCHEDULED"
  | deploying => "DEPLOYING"
  | initializing => "INITIALIZING"
  | running => "RUNNING"
  | finished => "FINISHED"
  | canceling => "CANCELING"
  | canceled => "CANCELED"
  | failed => "FAILED"

/-- A terminal state is never left. -/
def isTerminal : TaskState → Bool
  | finished | canceled | failed => true
  | _ => false

/-- Only a running task can take part in a checkpoint. -/
def isRunning : TaskState → Bool
  | running => true
  | _ => false

@[simp]
theorem isRunning_iff {s : TaskState} : s.isRunning = true ↔ s = running := by
  cases s <;> simp [isRunning]

end TaskState

/-- How a job ended. -/
inductive JobStatus where
  | finished
  | canceled
  | failed
  | suspended
deriving Repr, DecidableEq, Inhabited

namespace JobStatus

/-- All ways to end. -/
def all : List JobStatus := [finished, canceled, failed, suspended]

/-- The status's name. -/
def name : JobStatus → String
  | finished => "Finished"
  | canceled => "Canceled"
  | failed => "Failed"
  | suspended => "Suspended"

/-- The status as reports and logs write it. -/
def text : JobStatus → String
  | finished => "FINISHED"
  | canceled => "CANCELED"
  | failed => "FAILED"
  | suspended => "SUSPENDED"

end JobStatus

/-- Bytes, as they are stored and sent. -/
abbrev Bytes := List UInt8

/-- What each participant of a checkpoint handed over, by run. -/
abbrev Handles := Table TaskRun Bytes

end Checkpointing

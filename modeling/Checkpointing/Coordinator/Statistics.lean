import Checkpointing.Event
import Checkpointing.Json.Basic

/-!
# Statistics

Counts of the checkpoints of a job, kept by listening to notices.
-/

namespace Checkpointing

/-- What is counted and remembered of a job's checkpoints. -/
structure Statistics where
  triggered : Nat
  completed : Nat
  aborted : Nat
  latestId : Option Nat
  latestDuration : Option Int
  latestFailure : Option String
deriving Repr, DecidableEq

namespace Statistics

/-- Nothing was counted yet. -/
def empty : Statistics := ⟨0, 0, 0, none, none, none⟩

/-- The checkpoints that were triggered and have not ended. -/
def inProgress (s : Statistics) : Nat := s.triggered - (s.completed + s.aborted)

/-- Takes note of a notice.  The duration of a completed checkpoint has to be a timestamp. -/
def observe (s : Statistics) : Notice → Except Overflow Statistics
  | .triggered .. => .ok { s with triggered := s.triggered + 1 }
  | .completed id triggeredAt completedAt =>
    (Word.difference? completedAt triggeredAt).map fun duration =>
      { s with
        completed := s.completed + 1
        latestId := some id
        latestDuration := some duration }
  | .aborted _ reason =>
    .ok { s with aborted := s.aborted + 1, latestFailure := some reason.message }

/-- Takes note of the notices among events, in order. -/
def observeAll (s : Statistics) (events : List Event) : Except Overflow Statistics :=
  (events.filterMap Event.notice?).foldlM observe s

/-- The counts as an object. -/
def json (s : Statistics) : Json :=
  .object [("triggered", .nat s.triggered), ("completed", .nat s.completed),
    ("aborted", .nat s.aborted), ("latest_completed_id", .ofOption .nat s.latestId),
    ("latest_completed_duration_ms", .ofOption .whole s.latestDuration),
    ("latest_failure", .ofOption .text s.latestFailure)]

end Statistics

end Checkpointing

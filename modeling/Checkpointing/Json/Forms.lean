import Checkpointing.Json.Fields
import Checkpointing.Settings
import Checkpointing.Snapshot

/-!
# JSON forms

How this library's values are written as JSON, and read back.  Named values are written by their
names, records as objects with their fields in the order of their declaration, durations as whole
milliseconds.
-/

namespace Checkpointing

/-! ### Writing -/

/-- A run by its three numbers. -/
def TaskRun.json (r : TaskRun) : Json :=
  .object [("vertex_id", .nat r.vertex), ("subtask_index", .nat r.subtask),
    ("attempt", .nat r.attempt)]

/-- The state of a participant as an object around its bytes. -/
def Bytes.json (b : Bytes) : Json :=
  .object [("bytes", .array (b.map fun x => .nat x.toNat))]

/-- A kind of snapshot: a savepoint carries its kind and its format. -/
def SnapshotKind.json : SnapshotKind → Json
  | checkpoint => .text "Checkpoint"
  | savepoint kind format =>
    .object [("Savepoint", .object [("kind", .text kind.name), ("format", .text format.name)])]

/-- A policy with its claim. -/
def SnapshotPolicy.json (p : SnapshotPolicy) : Json :=
  .object [("snapshot_type", p.kind.json), ("forced", .bool p.forced),
    ("discard_subsumed", .bool p.discard.subsumed), ("discard_finished", .bool p.discard.finished),
    ("discard_cancelled", .bool p.discard.canceled), ("discard_failed", .bool p.discard.failed),
    ("discard_suspended", .bool p.discard.suspended), ("unclaimed", .bool p.unclaimed)]

/-- A snapshot's summary. -/
def SnapshotInfo.json (i : SnapshotInfo) : Json :=
  .object [("checkpoint_id", .nat i.id), ("properties", i.policy.json),
    ("trigger_timestamp", .whole i.triggeredAt), ("completion_timestamp", .whole i.completedAt),
    ("num_tasks", .nat i.tasks), ("external_pointer", .ofOption .text i.pointer)]

/-- A duration in whole milliseconds. -/
def Duration.json (d : Duration) : Json := .nat d.writtenMillis

/-- The settings of a job. -/
def Settings.json (s : Settings) : Json :=
  .object [("interval_ms", s.interval.json), ("checkpoint_timeout_ms", s.timeout.json),
    ("min_pause_between_checkpoints_ms", s.minPause.json),
    ("max_concurrent_checkpoints", .nat s.maxConcurrent),
    ("max_retained_checkpoints", .nat s.maxRetained),
    ("tolerable_failed_checkpoints", .ofOption .nat s.tolerableFailures),
    ("retention_policy", .text s.retention.name), ("claim_mode", .text s.claimMode.name)]

/-! ### Reading -/

namespace Reader

/-- Reads a 32-bit count. -/
def count32 : Reader Nat := count Word.max32

/-- Reads a 64-bit count. -/
def count64 : Reader Nat := count Word.max64

/-- Reads a run. -/
def taskRun : Reader TaskRun :=
  record false [field "vertex_id" count32 fun r n => { r with vertex := n },
    field "subtask_index" count64 fun r n => { r with subtask := n },
    field "attempt" count32 fun r n => { r with attempt := n }] default

/-- Reads the state of a participant. -/
def bytes : Reader Bytes :=
  record false [field "bytes" (list (count 255)) fun _ ns => ns.map UInt8.ofNat] []

/-- Reads the state of a run. -/
def taskState : Reader TaskState := choice TaskState.name TaskState.all

/-- Reads how a job ended. -/
def jobStatus : Reader JobStatus := choice JobStatus.name JobStatus.all

/-- Reads a format of savepoints. -/
def savepointFormat : Reader SavepointFormat := choice SavepointFormat.name SavepointFormat.all

/-- Reads a kind of savepoints. -/
def savepointKind : Reader SavepointKind := choice SavepointKind.name SavepointKind.all

/-- Reads a retention mode. -/
def retentionMode : Reader RetentionMode := choice RetentionMode.name RetentionMode.all

/-- Reads a claim mode. -/
def claimMode : Reader ClaimMode := choice ClaimMode.name ClaimMode.all

/-- Reads what a savepoint's name is followed by. -/
def savepoint : Reader SnapshotKind := fun cs =>
  (record false [field "kind" savepointKind fun (_, format) kind => (kind, format),
    field "format" savepointFormat fun (kind, _) format => (kind, format)]
    (SavepointKind.standard, SavepointFormat.canonical) cs).map fun ((kind, format), rest) =>
      (.savepoint kind format, rest)

/-- Reads a kind of snapshots. -/
def snapshotKind : Reader SnapshotKind :=
  variant fun name =>
    if name = "Checkpoint" then some (.plain .checkpoint)
    else if name = "Savepoint" then some (.carrying savepoint)
    else none

/-- Reads one of the discard rules into a policy. -/
def discardRule (name : String) (set : DiscardRules → Bool → DiscardRules) :
    Field SnapshotPolicy :=
  field name flag fun p b => { p with discard := set p.discard b }

/-- Reads a policy. -/
def policy : Reader SnapshotPolicy :=
  record false [field "snapshot_type" snapshotKind fun p kind => { p with kind := kind },
    field "forced" flag fun p b => { p with forced := b },
    discardRule "discard_subsumed" fun r b => { r with subsumed := b },
    discardRule "discard_finished" fun r b => { r with finished := b },
    discardRule "discard_cancelled" fun r b => { r with canceled := b },
    discardRule "discard_failed" fun r b => { r with failed := b },
    discardRule "discard_suspended" fun r b => { r with suspended := b },
    field "unclaimed" flag fun p b => { p with unclaimed := b }] default

/-- Reads a snapshot's summary. -/
def info : Reader SnapshotInfo :=
  record false [field "checkpoint_id" count64 fun i n => { i with id := n },
    field "properties" policy fun i p => { i with policy := p },
    field "trigger_timestamp" signed fun i t => { i with triggeredAt := t },
    field "completion_timestamp" signed fun i t => { i with completedAt := t },
    field "num_tasks" count64 fun i n => { i with tasks := n },
    (field "external_pointer" (nullable string) fun i p => { i with pointer := p }).optional]
    ⟨0, default, 0, 0, 0, none⟩

/-- Reads a duration in milliseconds. -/
def duration : Reader Duration := fun cs =>
  (count64 cs).map fun (n, rest) => (.ofMillis n, rest)

/-- Reads settings; what is missing has its default. -/
def settings : Reader Settings :=
  record true
    ([field "interval_ms" duration fun s d => { s with interval := d },
      field "checkpoint_timeout_ms" duration fun s d => { s with timeout := d },
      field "min_pause_between_checkpoints_ms" duration fun s d => { s with minPause := d },
      field "max_concurrent_checkpoints" count64 fun s n => { s with maxConcurrent := n },
      field "max_retained_checkpoints" count64 fun s n => { s with maxRetained := n },
      field "tolerable_failed_checkpoints" (nullable count32)
        fun s n => { s with tolerableFailures := n },
      field "retention_policy" retentionMode fun s m => { s with retention := m },
      field "claim_mode" claimMode fun s m => { s with claimMode := m }].map Field.optional)
    .default

end Reader

end Checkpointing

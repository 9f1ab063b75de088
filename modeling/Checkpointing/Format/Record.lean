import Checkpointing.Format.Codec
import Checkpointing.Settings
import Checkpointing.Snapshot

/-!
# Binary records

The binary forms of this library's values, chief among them the record that is stored with every
snapshot.  Fields stand in the order of their declaration.
-/

namespace Checkpointing

namespace Record

/-- A 32-bit number. -/
def word32 : Codec Nat := .word 4

/-- A 64-bit number. -/
def word64 : Codec Nat := .word 8

/-- A run as its vertex, subtask and attempt. -/
def taskRun : Codec TaskRun :=
  (word32.pair (word64.pair word32)).via
    (fun (vertex, subtask, attempt) => ⟨vertex, subtask, attempt⟩)
    (fun r => (r.vertex, r.subtask, r.attempt))

/-- What the index of a snapshot kind is followed by: for a savepoint its kind and its format. -/
def snapshotKind : Codec SnapshotKind where
  encode
    | .checkpoint => word32.encode 0
    | .savepoint kind format =>
      word32.encode 1 ++
        ((Codec.choice SavepointKind.all).pair (.choice SavepointFormat.all)).encode (kind, format)
  decode b := (word32.decode b).bind fun (index, rest) =>
    match index with
    | 0 => some (.checkpoint, rest)
    | 1 =>
      (((Codec.choice SavepointKind.all).pair (.choice SavepointFormat.all)).decode rest).map
        fun ((kind, format), rest) => (.savepoint kind format, rest)
    | _ => none
  Fits _ := True

/-- The five discard rules. -/
def discardRules : Codec DiscardRules :=
  (Codec.flag.pair (Codec.flag.pair (Codec.flag.pair (Codec.flag.pair .flag)))).via
    (fun (subsumed, finished, canceled, failed, suspended) =>
      ⟨subsumed, finished, canceled, failed, suspended⟩)
    (fun r => (r.subsumed, r.finished, r.canceled, r.failed, r.suspended))

/-- A policy with its claim. -/
def policy : Codec SnapshotPolicy :=
  (snapshotKind.pair (Codec.flag.pair (discardRules.pair .flag))).via
    (fun (kind, forced, discard, unclaimed) => ⟨kind, forced, discard, unclaimed⟩)
    (fun p => (p.kind, p.forced, p.discard, p.unclaimed))

/-- The states of all participants. -/
def handles : Codec Handles := .table taskRun .bytes

/-- The record that is stored with a snapshot. -/
def snapshot : Codec Snapshot :=
  (word64.pair (policy.pair (Codec.signed.pair (Codec.signed.pair
    (handles.pair (Codec.option .text)))))).via
    (fun (id, policy, triggeredAt, completedAt, handles, pointer) =>
      ⟨id, policy, triggeredAt, completedAt, handles, pointer⟩)
    (fun s => (s.id, s.policy, s.triggeredAt, s.completedAt, s.handles, s.pointer))

/-- A snapshot's summary. -/
def info : Codec SnapshotInfo :=
  (word64.pair (policy.pair (Codec.signed.pair (Codec.signed.pair
    (word64.pair (Codec.option .text)))))).via
    (fun (id, policy, triggeredAt, completedAt, tasks, pointer) =>
      ⟨id, policy, triggeredAt, completedAt, tasks, pointer⟩)
    (fun i => (i.id, i.policy, i.triggeredAt, i.completedAt, i.tasks, i.pointer))

/-- A duration as whole milliseconds. -/
def duration : Codec Duration where
  encode d := word64.encode d.writtenMillis
  decode b := (word64.decode b).map fun (n, rest) => (.ofMillis n, rest)
  Fits d := ∃ n ≤ Word.max64, d = .ofMillis n

/-- The settings of a job. -/
def settings : Codec Settings :=
  (duration.pair (duration.pair (duration.pair (word64.pair (word64.pair
    ((Codec.option word32).pair
      ((Codec.choice RetentionMode.all).pair (.choice ClaimMode.all)))))))).via
    (fun (interval, timeout, minPause, maxConcurrent, maxRetained, tolerable, retention, mode) =>
      ⟨interval, timeout, minPause, maxConcurrent, maxRetained, tolerable, retention, mode⟩)
    (fun s => (s.interval, s.timeout, s.minPause, s.maxConcurrent, s.maxRetained,
      s.tolerableFailures, s.retention, s.claimMode))

end Record

end Checkpointing

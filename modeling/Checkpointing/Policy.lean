import Checkpointing.Error
import Checkpointing.Text.OptionName

/-!
# Snapshot policies

A policy says what kind of snapshot a checkpoint produces and when its data may be thrown away.

## Main definitions

* `SnapshotPolicy` with its five discard rules, and the policies that jobs use:
  `SnapshotPolicy.ofRetention`, `savepoint`, `syncSavepoint` and `unclaimedSnapshot`.
* `SnapshotPolicy.agrees` compares policies by everything but their claim.
* `RetentionMode.parse` and `ClaimMode.parse` read the names that users write.
-/

namespace Checkpointing

/-- The binary form a savepoint is written in. -/
inductive SavepointFormat where
  | canonical
  | native
deriving Repr, DecidableEq, Inhabited

/-- The format's name. -/
def SavepointFormat.name : SavepointFormat → String
  | canonical => "Canonical"
  | native => "Native"

/-- All formats. -/
def SavepointFormat.all : List SavepointFormat := [canonical, native]

/-- What a savepoint is for; the last two end the job. -/
inductive SavepointKind where
  | standard
  | suspend
  | terminate
deriving Repr, DecidableEq, Inhabited

/-- The kind's name. -/
def SavepointKind.name : SavepointKind → String
  | standard => "Standard"
  | suspend => "Suspend"
  | terminate => "Terminate"

/-- All kinds of savepoints. -/
def SavepointKind.all : List SavepointKind := [standard, suspend, terminate]

/-- Checkpoints are taken by the system for recovery, savepoints by users for themselves. -/
inductive SnapshotKind where
  | checkpoint
  | savepoint (kind : SavepointKind) (format : SavepointFormat)
deriving Repr, DecidableEq, Inhabited

namespace SnapshotKind

/-- Whether a user asked for the snapshot. -/
def isSavepoint : SnapshotKind → Bool
  | checkpoint => false
  | savepoint .. => true

/-- Whether the job ends with the snapshot. -/
def isSynchronous : SnapshotKind → Bool
  | savepoint .suspend _ | savepoint .terminate _ => true
  | _ => false

/-- The kind as descriptions write it. -/
def text : SnapshotKind → String
  | checkpoint => "Checkpoint"
  | savepoint kind format => s!"Savepoint \x7b kind: {kind.name}, format: {format.name} \x7d"

end SnapshotKind

/-- What happens to a job's checkpoints when the job ends. -/
inductive RetentionMode where
  | neverAfterTermination
  | onFailure
  | onCancellation
deriving Repr, DecidableEq, Inhabited

namespace RetentionMode

/-- All modes. -/
def all : List RetentionMode := [neverAfterTermination, onFailure, onCancellation]

/-- The mode's name. -/
def name : RetentionMode → String
  | neverAfterTermination => "NEVER_RETAIN_AFTER_TERMINATION"
  | onFailure => "RETAIN_ON_FAILURE"
  | onCancellation => "RETAIN_ON_CANCELLATION"

/-- Reads a mode's name in any spelling of option names. -/
def parse (s : String) : Except SnapshotError RetentionMode :=
  match all.find? (fun m => m.name == OptionName.normalize s) with
  | some m => .ok m
  | none => .error (.unknownRetention s)

end RetentionMode

/-- Who owns a restored snapshot. -/
inductive ClaimMode where
  /-- The new run owns it and may discard it. -/
  | claim
  /-- It stays with whoever created it. -/
  | noClaim
deriving Repr, DecidableEq, Inhabited

namespace ClaimMode

/-- All modes. -/
def all : List ClaimMode := [claim, noClaim]

/-- The mode's name. -/
def name : ClaimMode → String
  | claim => "CLAIM"
  | noClaim => "NO_CLAIM"

/-- Reads a mode's name in any spelling of option names. -/
def parse (s : String) : Except SnapshotError ClaimMode :=
  match all.find? (fun m => m.name == OptionName.normalize s) with
  | some m => .ok m
  | none => .error (.invalidSettings (.unknownClaimMode s))

end ClaimMode

/-- The occasions on which a snapshot is discarded. -/
structure DiscardRules where
  /-- Enough newer snapshots are retained. -/
  subsumed : Bool
  finished : Bool
  canceled : Bool
  failed : Bool
  suspended : Bool
deriving Repr, DecidableEq, Inhabited

namespace DiscardRules

/-- Discard on every occasion. -/
def always : DiscardRules := ⟨true, true, true, true, true⟩

/-- Discard on no occasion. -/
def never : DiscardRules := ⟨false, false, false, false, false⟩

/-- Whether the snapshot goes when the job ends in `status`. -/
def onStatus (r : DiscardRules) : JobStatus → Bool
  | .finished => r.finished
  | .canceled => r.canceled
  | .failed => r.failed
  | .suspended => r.suspended

end DiscardRules

/-- What kind of snapshot a checkpoint produces and when its data may be thrown away. -/
structure SnapshotPolicy where
  kind : SnapshotKind
  /-- A forced checkpoint ignores the limits on triggers and is not subsumed while it is under
  way. -/
  forced : Bool
  discard : DiscardRules
  /-- The snapshot was restored without taking ownership of it. -/
  unclaimed : Bool
deriving Repr, DecidableEq, Inhabited

namespace SnapshotPolicy

/-- The policy of a job's periodic checkpoints. -/
def ofRetention (mode : RetentionMode) : SnapshotPolicy where
  kind := .checkpoint
  forced := false
  discard :=
    match mode with
    | .neverAfterTermination => .always
    | .onFailure => { DiscardRules.always with failed := false }
    | .onCancellation =>
      { DiscardRules.always with canceled := false, failed := false, suspended := false }
  unclaimed := false

/-- A savepoint that leaves the job running.  It is never discarded automatically. -/
def savepoint (forced : Bool) (format : SavepointFormat) : SnapshotPolicy :=
  ⟨.savepoint .standard format, forced, .never, false⟩

/-- A savepoint after which the job is terminated or suspended. -/
def syncSavepoint (forced terminate : Bool) (format : SavepointFormat) : SnapshotPolicy :=
  ⟨.savepoint (if terminate then .terminate else .suspend) format, forced, .never, false⟩

/-- The policy of a snapshot restored without claiming it. -/
def unclaimedSnapshot : SnapshotPolicy :=
  ⟨.savepoint .standard .canonical, false, .never, true⟩

/-- Whether a user asked for the snapshot. -/
def isSavepoint (p : SnapshotPolicy) : Bool := p.kind.isSavepoint

/-- Whether the job ends with the snapshot. -/
def isSynchronous (p : SnapshotPolicy) : Bool := p.kind.isSynchronous

/-- The policy without its claim. -/
def terms (p : SnapshotPolicy) : SnapshotPolicy := { p with unclaimed := false }

/-- Policies agree when they have the same terms; who owns the snapshot does not matter. -/
def agrees (p q : SnapshotPolicy) : Bool := p.terms == q.terms

/-- The policy in words. -/
def text (p : SnapshotPolicy) : String :=
  s!"CheckpointProperties\x7bforced={p.forced}, type={p.kind.text}, " ++
  s!"discard_subsumed={p.discard.subsumed}, discard_finished={p.discard.finished}, " ++
  s!"discard_cancelled={p.discard.canceled}, discard_failed={p.discard.failed}, " ++
  s!"discard_suspended={p.discard.suspended}\x7d"

/-- The policy as an in-flight checkpoint's description writes it, with its claim. -/
def description (p : SnapshotPolicy) : String :=
  s!"CheckpointProperties \x7b snapshot_type: {p.kind.text}, forced: {p.forced}, " ++
  s!"discard_subsumed: {p.discard.subsumed}, discard_finished: {p.discard.finished}, " ++
  s!"discard_cancelled: {p.discard.canceled}, discard_failed: {p.discard.failed}, " ++
  s!"discard_suspended: {p.discard.suspended}, unclaimed: {p.unclaimed} \x7d"

end SnapshotPolicy

end Checkpointing

import Mathlib.Tactic
import Checkpointing.Format.Record
import Checkpointing.Proofs.Format.Codec

/-!
# Records lose nothing

The record of a snapshot reads back as the snapshot, if its numbers fit their words.

* `lossless_snapshot` is the law; `Snapshot.Recordable` says which snapshots have a record;
* `read?_encode_snapshot` is the form that readers of records use.
-/

namespace Checkpointing

/-- The numbers of a run fit their words. -/
def TaskRun.Fits (run : TaskRun) : Prop :=
  run.vertex ≤ Word.max32 ∧ run.subtask ≤ Word.max64 ∧ run.attempt ≤ Word.max32

instance (run : TaskRun) : Decidable run.Fits := inferInstanceAs (Decidable (_ ∧ _ ∧ _))

/-- The numbers, times and lengths of a snapshot fit their words. -/
structure Snapshot.Recordable (s : Snapshot) : Prop where
  id : s.id ≤ Word.max64
  triggeredAt : Word.IsSigned s.triggeredAt
  completedAt : Word.IsSigned s.completedAt
  size : s.handles.size ≤ Word.max64
  handles : ∀ e ∈ s.handles.entries, e.1.Fits ∧ e.2.length ≤ Word.max64
  pointer : ∀ text, s.pointer = some text → text.utf8ByteSize ≤ Word.max64

namespace Record

theorem lossless_taskRun : taskRun.Lossless :=
  ((Codec.lossless_word 4).pair ((Codec.lossless_word 8).pair (Codec.lossless_word 4))).via
    fun _ => rfl

theorem decode_word32 {n : Nat} (h : n ≤ Word.max32) (rest : List UInt8) :
    word32.decode (word32.encode n ++ rest) = some (n, rest) :=
  Codec.lossless_word 4 n rest (Nat.lt_succ_of_le h)

theorem lossless_snapshotKind : snapshotKind.Lossless := by
  intro kind rest _
  cases kind with
  | checkpoint =>
    simp only [snapshotKind]
    rw [decode_word32 (by decide)]
    rfl
  | savepoint kind format =>
    have hkinds : (Codec.choice SavepointKind.all).Lossless := Codec.lossless_choice (by decide)
    have hformats : (Codec.choice SavepointFormat.all).Lossless := Codec.lossless_choice (by decide)
    have hpair := hkinds.pair hformats
    simp only [snapshotKind]
    rw [List.append_assoc, decode_word32 (by decide), Option.bind_some]
    dsimp only
    have hkind : kind ∈ SavepointKind.all := by cases kind <;> decide
    have hformat : format ∈ SavepointFormat.all := by cases format <;> decide
    rw [hpair (kind, format) rest ⟨hkind, hformat⟩]
    rfl

theorem lossless_discardRules : discardRules.Lossless :=
  (Codec.lossless_flag.pair (Codec.lossless_flag.pair (Codec.lossless_flag.pair
    (Codec.lossless_flag.pair Codec.lossless_flag)))).via fun _ => rfl

theorem lossless_policy : policy.Lossless :=
  (lossless_snapshotKind.pair (Codec.lossless_flag.pair
    (lossless_discardRules.pair Codec.lossless_flag))).via fun _ => rfl

theorem lossless_snapshot : snapshot.Lossless :=
  ((Codec.lossless_word 8).pair (lossless_policy.pair (Codec.lossless_signed.pair
    (Codec.lossless_signed.pair ((lossless_taskRun.table Codec.lossless_bytes).pair
      Codec.lossless_text.option))))).via fun _ => rfl

theorem fits_taskRun {run : TaskRun} (h : run.Fits) : taskRun.Fits run := by
  obtain ⟨hvertex, hsubtask, hattempt⟩ := h
  exact ⟨Nat.lt_succ_of_le hvertex, Nat.lt_succ_of_le hsubtask, Nat.lt_succ_of_le hattempt⟩

theorem fits_snapshot {s : Snapshot} (h : s.Recordable) : snapshot.Fits s := by
  have hpolicy : policy.Fits s.policy :=
    ⟨trivial, trivial, ⟨trivial, trivial, trivial, trivial, trivial⟩, trivial⟩
  have hhandles : handles.Fits s.handles := by
    refine ⟨h.size, ?_⟩
    intro e he
    obtain ⟨hrun, hbytes⟩ := h.handles e he
    exact ⟨fits_taskRun hrun, hbytes, fun _ _ => trivial⟩
  have hpointer : (Codec.option .text).Fits s.pointer := by
    intro text htext
    exact Codec.fits_text (h.pointer text htext)
  exact ⟨Nat.lt_succ_of_le h.id, hpolicy, h.triggeredAt, h.completedAt, hhandles, hpointer⟩

/-- The record of a snapshot reads back as the snapshot. -/
theorem read?_encode_snapshot {s : Snapshot} (h : s.Recordable) :
    snapshot.read? (snapshot.encode s) = some s :=
  lossless_snapshot.read?_encode (fits_snapshot h)

end Record
end Checkpointing

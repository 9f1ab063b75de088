import Mathlib.Data.List.Perm.Subperm
import Mathlib.Tactic
import Checkpointing.Proofs.Table
import Checkpointing.Round

/-!
# Laws of rounds

What an acknowledgment does to a round, and what holds of every round that is under way.

* `acknowledge_cases` says everything that an acknowledgment can do;
* `Followed` is a round in progress with one listener and somebody who waits for its outcome;
* `UnderWay` is what a coordinator keeps true of its rounds: they are followed, only participants
  have acknowledged and one of them still owes;
* `Full` is a round that got its last acknowledgment;
* `hasAck_iff_of_isFull`, `isFull_of_forall_hasAck`: comparing two lengths is enough to know that
  all have acknowledged;
* `complete?_eq_some_iff` and `abort?_eq_some_iff` say when a round settles, and how.
-/

namespace Checkpointing

theorem Phase.failure?_of_inProgress {p : Phase} (h : p = .inProgress) : p.failure? = none := by
  rw [h]
  rfl

namespace Round

variable {r : Round} {run : TaskRun} {state : Bytes} {id : Nat}

theorem expects_iff : r.expects run = true ↔ run ∈ r.expected := by
  simp [expects]

/-- The round after the handle of a run was recorded. -/
def record (r : Round) (run : TaskRun) (state : Bytes) : Round :=
  { r with acked := r.acked.insert run state }

/-- Everything that an acknowledgment can do: be none of the round's business, come again, or be
recorded. -/
theorem acknowledge_cases (r : Round) (run : TaskRun) (state : Bytes) :
    ((r.isInProgress = false ∨ run ∉ r.expected) ∧ r.acknowledge run state = (r, .unknownTask)) ∨
    (run ∈ r.expected ∧ r.hasAck run = true ∧
      r.acknowledge run state = (r, .alreadyAcknowledged)) ∨
    (r.isInProgress = true ∧ run ∈ r.expected ∧ r.hasAck run = false ∧
      r.acknowledge run state =
        (r.record run state, if (r.record run state).isFull then .completes else .accepted)) := by
  unfold acknowledge
  by_cases hmem : run ∈ r.expected
  · have hexp : r.expects run = true := expects_iff.2 hmem
    cases hprog : r.isInProgress with
    | false => simp
    | true =>
      cases hack : r.hasAck run with
      | true => simp [hmem, hexp]
      | false =>
        refine Or.inr (Or.inr ⟨rfl, hmem, rfl, ?_⟩)
        simp only [hexp, Bool.not_true, Bool.or_self, Bool.false_eq_true, if_false]
        rfl
  · have hexp : r.expects run = false := Bool.eq_false_iff.2 fun h => hmem (expects_iff.1 h)
    simp [hmem, hexp]

/-- A round that is settled takes no handles. -/
theorem acknowledge_of_not_inProgress (h : r.isInProgress = false) (run : TaskRun)
    (state : Bytes) : r.acknowledge run state = (r, .unknownTask) := by
  simp [acknowledge, h]

/-- An acknowledgment that completes was the first one of its run, and it filled the round. -/
theorem acknowledge_eq_completes {r' : Round} (h : r.acknowledge run state = (r', .completes)) :
    r.isInProgress = true ∧ run ∈ r.expected ∧ r.hasAck run = false ∧
      r' = r.record run state ∧ r'.isFull = true := by
  rcases acknowledge_cases r run state with ⟨-, he⟩ | ⟨-, -, he⟩ | ⟨hprog, hmem, hack, he⟩
  · rw [he] at h; cases h
  · rw [he] at h; cases h
  · rw [he] at h
    obtain ⟨rfl, hres⟩ := Prod.mk.inj h
    refine ⟨hprog, hmem, hack, rfl, ?_⟩
    by_contra hfull
    rw [if_neg hfull] at hres
    cases hres

/-- After an acknowledgment that is accepted but does not complete, others still owe theirs. -/
theorem isFull_of_accepted {r' : Round} (h : r.acknowledge run state = (r', .accepted)) :
    r'.isFull = false := by
  rcases acknowledge_cases r run state with ⟨-, he⟩ | ⟨-, -, he⟩ | ⟨-, -, -, he⟩
  · rw [he] at h; cases h
  · rw [he] at h; cases h
  · rw [he] at h
    obtain ⟨rfl, hres⟩ := Prod.mk.inj h
    refine Bool.eq_false_iff.2 fun hfull => ?_
    rw [if_pos hfull] at hres
    cases hres

/-- What a round has recorded of a run after an acknowledgment: what it had recorded before, or
else the handle that was just sent, if it was sent by that run and the run takes part. -/
theorem find?_acked_acknowledge (hprog : r.phase = .inProgress) (other : TaskRun) :
    (r.acknowledge run state).1.acked.find? other =
      (r.acked.find? other).or
        (if other = run ∧ other ∈ r.expected then some state else none) := by
  rcases acknowledge_cases r run state with ⟨hno, he⟩ | ⟨-, hack, he⟩ | ⟨-, hmem, hack, he⟩
  · have hmem : run ∉ r.expected := hno.resolve_left (by simp [isInProgress, hprog])
    have hcond : ¬(other = run ∧ other ∈ r.expected) := fun ⟨heq, h⟩ => hmem (heq ▸ h)
    simp [he, hcond]
  · rw [he]
    by_cases heq : other = run
    · obtain ⟨old, hold⟩ := Table.contains_iff.1 hack
      simp [heq, hold]
    · simp [heq]
  · rw [he]
    simp only [record, Table.find?_insert]
    by_cases heq : other = run
    · have hnone : r.acked.find? run = none := Table.contains_eq_false_iff.1 hack
      simp [heq, hnone, hmem]
    · simp [heq]

/-- In a full round exactly the participants have acknowledged. -/
theorem hasAck_iff_of_isFull (hfull : r.isFull = true)
    (hacked : ∀ run, r.hasAck run = true → run ∈ r.expected) (run : TaskRun) :
    r.hasAck run = true ↔ run ∈ r.expected := by
  have hsub : r.acked.keys ⊆ r.expected := fun k hk => hacked k (Table.mem_keys_iff.1 hk)
  have hlen : r.expected.length ≤ r.acked.keys.length := by
    rw [Table.length_keys]
    exact (beq_iff_eq.1 hfull).ge
  -- The keys are distinct and all expected, so as many of them as are expected are all of them.
  have hperm : r.acked.keys.Perm r.expected :=
    (List.subperm_of_subset r.acked.nodup_keys hsub).perm_of_length_le hlen
  rw [← hperm.mem_iff, Table.mem_keys_iff, hasAck]

/-- A round in which all participants have acknowledged is full. -/
theorem isFull_of_forall_hasAck (hnodup : r.expected.Nodup)
    (hacked : ∀ run, r.hasAck run = true → run ∈ r.expected)
    (hall : ∀ run ∈ r.expected, r.hasAck run = true) : r.isFull = true := by
  have hsub : r.acked.keys ⊆ r.expected := fun k hk => hacked k (Table.mem_keys_iff.1 hk)
  have hle := (hnodup.subperm fun run hmem => Table.mem_keys_iff.2 (hall run hmem)).length_le
  have hge := (r.acked.nodup_keys.subperm hsub).length_le
  rw [Table.length_keys] at hle hge
  exact beq_iff_eq.2 (by omega)

/-- An acknowledgment changes nothing of a round but its handles. -/
theorem acknowledge_frame (r : Round) (run : TaskRun) (state : Bytes) :
    ∃ acked, (r.acknowledge run state).1 = { r with acked := acked } := by
  rcases acknowledge_cases r run state with ⟨-, he⟩ | ⟨-, -, he⟩ | ⟨-, -, -, he⟩ <;> rw [he]
  · exact ⟨r.acked, rfl⟩
  · exact ⟨r.acked, rfl⟩
  · exact ⟨_, rfl⟩

theorem expected_acknowledge (r : Round) (run : TaskRun) (state : Bytes) :
    (r.acknowledge run state).1.expected = r.expected := by
  obtain ⟨acked, hframe⟩ := acknowledge_frame r run state
  rw [hframe]

theorem policy_acknowledge (r : Round) (run : TaskRun) (state : Bytes) :
    (r.acknowledge run state).1.policy = r.policy := by
  obtain ⟨acked, hframe⟩ := acknowledge_frame r run state
  rw [hframe]

/-! ### Who still owes -/

/-- A handle of a participant is recorded in a round that stays in progress. -/
theorem hasAck_record (other : TaskRun) :
    (r.record run state).hasAck other = true ↔ other = run ∨ r.hasAck other = true := by
  simp only [record, hasAck, Table.contains, Table.find?_insert]
  by_cases heq : other = run <;> simp [heq]

/-- Only participants have acknowledged after the handle of one of them was recorded. -/
theorem mem_of_hasAck_record (hmem : run ∈ r.expected)
    (hacked : ∀ run, r.hasAck run = true → run ∈ r.expected) (other : TaskRun)
    (hack : (r.record run state).hasAck other = true) : other ∈ r.expected := by
  rcases (hasAck_record other).1 hack with rfl | hold
  · exact hmem
  · exact hacked other hold

theorem awaits_iff : r.awaits run = true ↔ run ∈ r.expected ∧ r.hasAck run = false := by
  simp [awaits, expects_iff]

/-- A round that starts waits for its participants. -/
theorem awaits_start {policy : SnapshotPolicy} {time : Int} {participants : List TaskRun}
    {listeners : List Listener} :
    (start id policy time participants listeners).takeFuture.awaits run = true ↔
      run ∈ participants := by
  rw [awaits_iff]
  exact (and_iff_left rfl).trans TaskRun.mem_sortDistinct

/-- An acknowledgment makes a round wait for nobody for whom it did not wait before. -/
theorem awaits_of_acknowledge {other : TaskRun}
    (h : (r.acknowledge run state).1.awaits other = true) : r.awaits other = true := by
  rcases acknowledge_cases r run state with ⟨-, he⟩ | ⟨-, -, he⟩ | ⟨-, -, -, he⟩ <;> rw [he] at h
  · exact h
  · exact h
  · obtain ⟨hmem, hack⟩ := awaits_iff.1 h
    refine awaits_iff.2 ⟨hmem, Bool.eq_false_iff.2 fun hold => ?_⟩
    rw [(hasAck_record other).2 (Or.inr hold)] at hack
    cases hack

/-! ### Settling -/

/-- A round is completed when it is in progress and has all its handles. -/
theorem complete?_eq_some_iff {info : SnapshotInfo} {r' : Round} {settlement : Settlement} :
    r.complete? info = some (r', settlement) ↔
      (r.phase = .inProgress ∧ r.isFull = true) ∧
        r' = { r with phase := .completed, waiting := none } ∧
        settlement = ⟨(Notice.completed r.id r.triggeredAt info.completedAt).tell r.listeners,
          r.deliver (.ok info)⟩ := by
  rw [← Phase.isInProgress_iff, ← Bool.and_eq_true, complete?, isInProgress]
  split
  · next hready => simp [hready, eq_comm]
  · next hready => simp [hready]

/-- A round is aborted when it is in progress. -/
theorem abort?_eq_some_iff {reason : SnapshotError} {r' : Round} {settlement : Settlement} :
    r.abort? reason = some (r', settlement) ↔
      r.phase = .inProgress ∧
        r' = { r with phase := .aborted reason, acked := ∅, waiting := none } ∧
        settlement = ⟨(Notice.aborted r.id reason).tell r.listeners,
          r.deliver (.error reason)⟩ := by
  rw [← Phase.isInProgress_iff, abort?, isInProgress]
  split
  · next hready => simp [hready, eq_comm]
  · next hready => simp [hready]

/-! ### Rounds under way -/

/-- The round of `id` is in progress, and its end will be heard of. -/
structure Followed (id : Nat) (r : Round) : Prop where
  own : r.id = id
  inProgress : r.phase = .inProgress
  /-- Whoever triggered the round has its latest future. -/
  waited : ∃ future, r.waiting = some future
  heard : ∃ listener, r.listeners = [listener]

/-- The round of `id` is under way. -/
structure UnderWay (id : Nat) (r : Round) : Prop extends Followed id r where
  /-- Only participants have acknowledged. -/
  acked : ∀ run, r.hasAck run = true → run ∈ r.expected
  /-- Somebody still owes an acknowledgment. -/
  owes : r.isFull = false

theorem underWay_start {policy : SnapshotPolicy} {time : Int} {participants : List TaskRun}
    {listener : Listener} (h : participants ≠ []) :
    (start id policy time participants [listener]).takeFuture.UnderWay id where
  own := rfl
  inProgress := rfl
  waited := ⟨_, rfl⟩
  heard := ⟨listener, rfl⟩
  acked := fun run hack => by
    simp [start, takeFuture, hasAck, Table.contains] at hack
  owes := by
    obtain ⟨run, hrun⟩ := List.exists_mem_of_ne_nil participants h
    have hmem : run ∈ TaskRun.sortDistinct participants := TaskRun.mem_sortDistinct.2 hrun
    have hpos := List.length_pos_of_mem hmem
    refine beq_eq_false_iff_ne.2 ?_
    show (0 : Nat) ≠ (TaskRun.sortDistinct participants).length
    omega

/-- The round goes on after an acknowledgment unless that was the last one owed. -/
theorem UnderWay.acknowledge (h : r.UnderWay id)
    (hres : (r.acknowledge run state).2 ≠ .completes) :
    (r.acknowledge run state).1.UnderWay id := by
  rcases acknowledge_cases r run state with ⟨-, he⟩ | ⟨-, -, he⟩ | ⟨-, hmem, -, he⟩
  · rw [he]; exact h
  · rw [he]; exact h
  · rw [he] at hres ⊢
    refine ⟨⟨h.own, h.inProgress, h.waited, h.heard⟩, mem_of_hasAck_record hmem h.acked, ?_⟩
    by_contra hfull
    exact hres (if_pos (by simpa using hfull))

/-- A round that is under way waits for one of its participants. -/
theorem UnderWay.exists_awaits (h : r.UnderWay id)
    (hnodup : r.expected.Nodup) : ∃ run, r.awaits run = true := by
  by_contra hnone
  have hfull := isFull_of_forall_hasAck hnodup h.acked fun run hmem => by
    by_contra hack
    exact hnone ⟨run, awaits_iff.2 ⟨hmem, by simpa using hack⟩⟩
  rw [h.owes] at hfull
  cases hfull

/-- The round of `id` has all its handles and is about to settle. -/
structure Full (id : Nat) (r : Round) : Prop extends Followed id r where
  full : r.isFull = true

/-- The last acknowledgment fills the round. -/
theorem UnderWay.full_of_completes {r' : Round} (h : r.UnderWay id)
    (hack : r.acknowledge run state = (r', .completes)) : r'.Full id := by
  obtain ⟨-, -, -, rfl, hfull⟩ := acknowledge_eq_completes hack
  exact ⟨⟨h.own, h.inProgress, h.waited, h.heard⟩, hfull⟩

/-- The acknowledgment that completes a round leaves it in progress, with a handle of exactly the
participants. -/
theorem UnderWay.hasAck_iff_of_completes {r' : Round} (h : r.UnderWay id)
    (hack : r.acknowledge run state = (r', .completes)) (other : TaskRun) :
    r'.hasAck other = true ↔ other ∈ r.expected := by
  obtain ⟨-, hmem, -, rfl, hfull⟩ := acknowledge_eq_completes hack
  exact hasAck_iff_of_isFull (r := r.record run state) hfull
    (mem_of_hasAck_record hmem h.acked) other

end Round
end Checkpointing

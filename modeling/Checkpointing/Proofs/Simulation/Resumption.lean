import Mathlib.Tactic
import Checkpointing.Proofs.Coordinator.Cut
import Checkpointing.Proofs.Format.Codec
import Checkpointing.Simulation.Job

/-!
# Resuming from a snapshot

A worker hands over its count of records, and the run that replaces it starts from the count that
the snapshot holds of its subtask.  It is looked up by the subtask alone, whichever run handed it
over; that finds the right one since a snapshot holds the handle of one run for each subtask.

* `countOf_encode`: a count can be read from the eight bytes that a worker makes of it;
* `Snapshot.recordsOf_eq`, `Snapshot.recordsOf_eq_zero`: the count of a subtask if one run of it has
  a handle, and if none has;
* `find?_handles_of_completes`: the handles of a completed checkpoint are the first ones of the runs
  that were current at its trigger;
* `restores_first_count` is the main statement.
-/

namespace Checkpointing

/-! ### Counts in a snapshot -/

/-- A count can be read from its eight bytes. -/
theorem countOf_encode {n : Nat} (h : n ≤ Word.max64) : countOf (countForm.encode n) = n := by
  have hfits : countForm.Fits n := by
    have hsize : Nat.pow 256 8 = Word.max64 + 1 := by decide
    exact (Nat.lt_succ_of_le h).trans_eq hsize.symm
  have hread := Codec.lossless_word 8 n [] hfits
  rw [List.append_nil] at hread
  unfold countOf countForm
  rw [hread]

namespace Snapshot

variable {s : Snapshot} {run : TaskRun} {state : Bytes} {subtask : Nat}

/-- The count of a subtask is in the handle of its run, if no other run of it has a handle. -/
theorem recordsOf_eq (hslot : run.slot = ⟨simulatedVertex, subtask⟩)
    (hfind : s.handles.find? run = some state)
    (honly : ∀ r, s.handles.contains r = true → r.slot = run.slot → r = run) :
    s.recordsOf subtask = countOf state := by
  have hentry : (run, state) ∈ s.handles.entries := s.handles.mem_entries_iff.2 hfind
  unfold recordsOf
  split
  · next r found hfirst =>
    have hmatches := List.find?_some hfirst
    have hr : r.slot = ⟨simulatedVertex, subtask⟩ := beq_iff_eq.1 hmatches
    have hfound := s.handles.mem_entries_iff.1 (List.mem_of_find?_eq_some hfirst)
    obtain rfl := honly r (Table.contains_iff.2 ⟨_, hfound⟩) (hr.trans hslot.symm)
    rw [Option.some.inj (hfound.symm.trans hfind)]
  · next hfirst => exact absurd (beq_iff_eq.2 hslot) (List.find?_eq_none.1 hfirst _ hentry)

/-- A subtask of which no run has a handle counts from zero. -/
theorem recordsOf_eq_zero
    (hnone : ∀ r, s.handles.contains r = true → r.slot ≠ ⟨simulatedVertex, subtask⟩) :
    s.recordsOf subtask = 0 := by
  unfold recordsOf
  split
  · next r found hfirst =>
    have hmatches := List.find?_some hfirst
    have hfound := s.handles.mem_entries_iff.1 (List.mem_of_find?_eq_some hfirst)
    exact absurd (beq_iff_eq.1 hmatches) (hnone r (Table.contains_iff.2 ⟨_, hfound⟩))
  · rfl

end Snapshot

/-! ### Counts that were acknowledged -/

/-- Whoever acknowledges in this moment hands over a count of records. -/
def Moment.HandsOverCount (m : Moment) : Prop :=
  ∀ id run state now, m.request = .acknowledge id run state now →
    ∃ n ≤ Word.max64, state = countForm.encode n

/-- Every handle that is sent is a count then. -/
theorem exists_count_of_firstHandle? {history : List Moment} {id : Nat} {run : TaskRun}
    {state : Bytes} (hcounts : ∀ m ∈ history, m.HandsOverCount)
    (h : firstHandle? history id run = some state) :
    ∃ n ≤ Word.max64, state = countForm.encode n := by
  obtain ⟨m, hm, hhandle⟩ := List.exists_of_findSome?_eq_some h
  unfold Moment.handle? at hhandle
  split at hhandle
  · next i r sent now hreq =>
    obtain ⟨-, hsent⟩ := Option.ite_none_right_eq_some.1 hhandle
    rw [← Option.some.inj hsent]
    exact hcounts m hm i r sent now hreq
  · cases hhandle

section Completion

variable {settings : Settings} {archive : Archive} {hasHandler : Bool}
  {outside : Vault → Vault → Prop} {start c : Coordinator} {past future : List Moment} {m : Moment}
  {id : Nat} {run : TaskRun} {state : Bytes} {now : Int}

/-- Every run that was current at the trigger of a completed checkpoint, and no other, has a handle
in its snapshot, the first one that it sent. -/
theorem find?_handles_of_completes
    (hopen : Coordinator.open? settings archive hasHandler = .ok start)
    (hrun : Run outside start (past ++ m :: future) c)
    (hreq : m.request = .acknowledge id run state now)
    (hreply : m.reply = .acknowledged (.ok .completes)) :
    ∃ trigger ∈ past, ∃ s, trigger.reply = .triggered (.ok id) ∧ trigger.before.Orderly ∧
      m.Registers s ∧ s.id = id ∧
      (∀ r, s.handles.contains r = true ↔ r ∈ trigger.before.runs) ∧
      ∀ r ∈ trigger.before.runs, s.handles.find? r = firstHandle? (past ++ [m]) id r := by
  have hstart := Coordinator.orderly_of_open hopen
  obtain ⟨d, vault, hpast, -, hbefore, hstep, -⟩ := hrun.moment
  obtain ⟨hreached, hmoments⟩ := Coordinator.Orderly.of_run hpast hstart
  obtain ⟨r, r', hfind, hack, hregisters⟩ := Coordinator.completes_step hstep hreq hreply
  have hunder : r.UnderWay id := by
    rw [hbefore] at hfind
    exact hreached.underWay hfind
  have htraced : Traced past m.before := by
    rw [hbefore]
    exact (traced_of_run hpast hstart (Coordinator.rounds_of_open hopen)).1
  obtain ⟨⟨trigger, hmem, hopens⟩, hacked⟩ := htraced hfind
  have hexpected : ∀ other, other ∈ r.expected ↔ other ∈ trigger.before.runs := by
    intro other
    rw [hopens.expected, TaskRun.mem_sortDistinct]
  have hhandles := find?_acked_of_moment hunder hreq hfind hacked
  have hid : r'.id = id := by
    obtain ⟨-, -, -, rfl, -⟩ := Round.acknowledge_eq_completes hack
    exact hunder.own
  rw [hack] at hhandles
  refine ⟨trigger, hmem, _, hopens.reply, (hmoments trigger hmem).1, hregisters, hid,
    fun other => (hunder.hasAck_iff_of_completes hack other).trans (hexpected other),
    fun other hother => ?_⟩
  exact (hhandles other).trans (if_pos ((hexpected other).2 hother))

/-- A restarted subtask resumes from exactly the count that it handed over.  Whenever a checkpoint
completes, in a run in which every acknowledgment hands over a count of records, each subtask that
had a current run at the trigger is restored with the count that this run acknowledged first,
whichever attempt it was, and a subtask without a handle in the snapshot is restored with zero. -/
theorem restores_first_count
    (hopen : Coordinator.open? settings archive hasHandler = .ok start)
    (hrun : Run outside start (past ++ m :: future) c)
    (hreq : m.request = .acknowledge id run state now)
    (hreply : m.reply = .acknowledged (.ok .completes))
    (hcounts : ∀ m' ∈ past ++ [m], m'.HandsOverCount) :
    ∃ trigger ∈ past, ∃ s, trigger.reply = .triggered (.ok id) ∧ m.Registers s ∧ s.id = id ∧
      (∀ subtask r taskState,
        trigger.before.tasks.find? ⟨simulatedVertex, subtask⟩ = some (r, taskState) →
        ∃ n ≤ Word.max64, firstHandle? (past ++ [m]) id r = some (countForm.encode n) ∧
          Job.restoredCount (some s) subtask = n) ∧
      ∀ subtask, (∀ r, s.handles.contains r = true → r.slot ≠ ⟨simulatedVertex, subtask⟩) →
        Job.restoredCount (some s) subtask = 0 := by
  obtain ⟨trigger, hmem, s, htriggered, horderly, hregisters, hid, hcontains, hfirst⟩ :=
    find?_handles_of_completes hopen hrun hreq hreply
  refine ⟨trigger, hmem, s, htriggered, hregisters, hid, fun subtask r taskState htask => ?_,
    fun subtask hnone => Snapshot.recordsOf_eq_zero hnone⟩
  have hslot := horderly.seated htask
  have hcurrent : r ∈ trigger.before.runs :=
    horderly.mem_runs_iff.2 ⟨taskState, by rw [hslot]; exact htask⟩
  obtain ⟨sent, hsent⟩ := Table.contains_iff.1 ((hcontains r).2 hcurrent)
  have hhandle := (hfirst r hcurrent).symm.trans hsent
  obtain ⟨n, hn, rfl⟩ := exists_count_of_firstHandle? hcounts hhandle
  refine ⟨n, hn, hhandle, ?_⟩
  -- No other run of the subtask was current at the trigger, so no other one has a handle.
  have honly : ∀ other, s.handles.contains other = true → other.slot = r.slot → other = r := by
    intro other hother hsame
    obtain ⟨otherState, hfind⟩ := horderly.mem_runs_iff.1 ((hcontains other).1 hother)
    rw [hsame, hslot, htask] at hfind
    cases hfind
    rfl
  exact (Snapshot.recordsOf_eq hslot hsent honly).trans (countOf_encode hn)

end Completion

/-- Two workers, the first of which is restarted before the trigger.  What its earlier run sends
does not count, and neither does a second acknowledgment. -/
def countRequests : List Request :=
  [.update ⟨1, 0, 0⟩ .running, .update ⟨1, 1, 0⟩ .running, .update ⟨1, 0, 1⟩ .running,
    .trigger (.ofRetention .onFailure) 10, .acknowledge 1 ⟨1, 0, 0⟩ (countForm.encode 5) 20,
    .acknowledge 1 ⟨1, 0, 1⟩ (countForm.encode 300) 21,
    .acknowledge 1 ⟨1, 0, 1⟩ (countForm.encode 301) 22,
    .acknowledge 1 ⟨1, 1, 0⟩ (countForm.encode Word.max64) 23]

/-- Whether a trigger that opened checkpoint 1 found the restarted worker and the other one. -/
def Moment.findsRestarted (m : Moment) : Bool :=
  match m.reply with
  | .triggered (.ok 1) => m.before.tasks.find? ⟨1, 0⟩ == some (⟨1, 0, 1⟩, .running) &&
      m.before.tasks.find? ⟨1, 1⟩ == some (⟨1, 1, 0⟩, .running)
  | _ => true

/-- The restarted worker resumes from the count that it acknowledged first, the other one from the
greatest count. -/
theorem restores_first_count_of_restarted : ∃ start c past m s,
    Coordinator.open? .default ⟨.of (.memory ∅) .none, .empty 1⟩ false = .ok start ∧
    start.perform countRequests = (past ++ [m], c) ∧ m.Registers s ∧ s.id = 1 ∧
    Job.restoredCount (some s) 0 = 300 ∧ Job.restoredCount (some s) 1 = Word.max64 := by
  obtain ⟨start, c, past, m, hopen, hperform, hreq, hreply, hfound, hfirst, hsecond⟩ :
      ∃ start c past m,
        Coordinator.open? .default ⟨.of (.memory ∅) .none, .empty 1⟩ false = .ok start ∧
        start.perform countRequests = (past ++ [m], c) ∧
        m.request = .acknowledge 1 ⟨1, 1, 0⟩ (countForm.encode Word.max64) 23 ∧
        m.reply = .acknowledged (.ok .completes) ∧
        past.all Moment.findsRestarted = true ∧
        firstHandle? (past ++ [m]) 1 ⟨1, 0, 1⟩ = some (countForm.encode 300) ∧
        firstHandle? (past ++ [m]) 1 ⟨1, 1, 0⟩ = some (countForm.encode Word.max64) :=
    ⟨_, _, _, _, rfl, Prod.ext (List.dropLast_append_getLast (List.cons_ne_nil _ _)).symm rfl,
      rfl, rfl, rfl, rfl, rfl⟩
  have hrun : Run Eq start _ _ := Run.of_perform (fun _ => rfl) start countRequests
  have hrequests : (start.perform countRequests).1.map (·.request) = countRequests := by
    cases hopen
    rfl
  rw [hperform] at hrun hrequests
  have hcounts : ∀ m' ∈ past ++ [m], m'.HandsOverCount := by
    intro m' hm' id run state now hrequest
    have hin : m'.request ∈ countRequests := hrequests ▸ List.mem_map_of_mem hm'
    rw [hrequest] at hin
    simp only [countRequests, List.mem_cons, Request.acknowledge.injEq, reduceCtorEq,
      List.not_mem_nil, or_false, false_or] at hin
    rcases hin with ⟨-, -, rfl, -⟩ | ⟨-, -, rfl, -⟩ | ⟨-, -, rfl, -⟩ | ⟨-, -, rfl, -⟩
    · exact ⟨5, by decide, rfl⟩
    · exact ⟨300, by decide, rfl⟩
    · exact ⟨301, by decide, rfl⟩
    · exact ⟨Word.max64, le_rfl, rfl⟩
  obtain ⟨trigger, hmem, s, htriggered, hregisters, hid, hrestored, -⟩ :=
    restores_first_count hopen hrun hreq hreply hcounts
  have hfinds := List.all_eq_true.1 hfound trigger hmem
  rw [Moment.findsRestarted, htriggered] at hfinds
  obtain ⟨hrestarted, hother⟩ := Bool.and_eq_true_iff.1 hfinds
  obtain ⟨n, hn, hhandle, hcount⟩ := hrestored 0 _ _ (beq_iff_eq.1 hrestarted)
  obtain ⟨k, hk, hhandle', hcount'⟩ := hrestored 1 _ _ (beq_iff_eq.1 hother)
  have hsent := congrArg countOf (Option.some.inj (hfirst.symm.trans hhandle))
  have hsent' := congrArg countOf (Option.some.inj (hsecond.symm.trans hhandle'))
  rw [countOf_encode (by decide), countOf_encode hn] at hsent
  rw [countOf_encode le_rfl, countOf_encode hk] at hsent'
  exact ⟨start, c, past, m, s, hopen, hperform, hregisters, hid, hcount.trans hsent.symm,
    hcount'.trans hsent'.symm⟩

end Checkpointing

import Mathlib.Tactic
import Checkpointing.Proofs.Coordinator.Rounds
import Checkpointing.Proofs.Storage.Vault

/-!
# A completed snapshot is the triggered cut

The snapshot of a completed checkpoint holds one handle for every run that was current when the
checkpoint was triggered, and no other: the first one that the run sent while the checkpoint was
under way.

* `Moment.Registers` says that in a moment storage kept all handles of a snapshot and the archive
  then accepted it; `firstHandle?` reads the first handle of a run off a history;
* `Traced` ties every round under way to the trigger that opened it and to the acknowledgments in
  the history; `traced_of_run` is the induction over runs;
* `completed_is_triggered_cut` is the main statement.
-/

namespace Checkpointing

/-- In this moment storage kept every handle of a snapshot and the archive then accepted it. -/
def Moment.Registers (m : Moment) (s : Snapshot) : Prop :=
  ∃ vault added rest gone,
    (m.before.archive.vault.addressed s.id s.policy).persistAll s.id s.handles.entries =
      (vault, Vault.persisted s.id s.handles.entries, none) ∧
    Archive.add { m.before.archive with vault := vault } s = (m.after.archive, added, .ok gone) ∧
    m.events = Vault.persisted s.id s.handles.entries ++ added ++ rest

/-- The handle that a run sends in this moment for a checkpoint under way. -/
def Moment.handle? (m : Moment) (id : Nat) (run : TaskRun) : Option Bytes :=
  match m.request with
  | .acknowledge i r state _ =>
    if i = id ∧ r = run ∧ m.before.rounds.contains id = true then some state else none
  | _ => none

/-- The first handle that a run sent for a checkpoint while it was under way. -/
def firstHandle? (history : List Moment) (id : Nat) (run : TaskRun) : Option Bytes :=
  history.findSome? fun m => m.handle? id run

theorem firstHandle?_append (past : List Moment) (m : Moment) (id : Nat) (run : TaskRun) :
    firstHandle? (past ++ [m]) id run = (firstHandle? past id run).or (m.handle? id run) := by
  simp [firstHandle?, List.findSome?_append]

namespace Moment

theorem handle?_of_ne {m : Moment} {id : Nat} {run : TaskRun}
    (h : ∀ run state now, m.request ≠ .acknowledge id run state now) : m.handle? id run = none := by
  unfold handle?
  split
  · next i r state now hreq =>
    refine if_neg fun hcond => ?_
    exact h r state now (hcond.1 ▸ hreq)
  · rfl

theorem handle?_of_not_contains {m : Moment} {id : Nat} {run : TaskRun}
    (h : m.before.rounds.contains id = false) : m.handle? id run = none := by
  unfold handle?
  split
  · refine if_neg fun hcond => ?_
    rw [h] at hcond
    cases hcond.2.2
  · rfl

theorem handle?_of_acknowledge {m : Moment} {id : Nat} {run other : TaskRun} {state : Bytes}
    {now : Int} {r : Round} (hreq : m.request = .acknowledge id run state now)
    (hfind : m.before.rounds.find? id = some r) :
    m.handle? id other = if other = run then some state else none := by
  have hin : m.before.rounds.contains id = true := Table.contains_iff.2 ⟨r, hfind⟩
  simp [handle?, hreq, hin, eq_comm]

end Moment

/-! ### Rounds and their history -/

/-- The moment in which a trigger opened a round. -/
structure Opens (m : Moment) (id : Nat) (r : Round) : Prop where
  request : m.request = .trigger r.policy r.triggeredAt
  reply : m.reply = .triggered (.ok id)
  expected : r.expected = TaskRun.sortDistinct m.before.runs

/-- Every round under way was opened by a trigger of the past, and has recorded of every
participant the first handle that it sent. -/
def Traced (past : List Moment) (c : Coordinator) : Prop :=
  ∀ {id : Nat} {r : Round}, c.rounds.find? id = some r →
    (∃ trigger ∈ past, Opens trigger id r) ∧
    ∀ run, r.acked.find? run = if run ∈ r.expected then firstHandle? past id run else none

/-- The handles of a round follow the history when one of its runs acknowledges. -/
theorem find?_acked_of_moment {past : List Moment} {m : Moment} {id : Nat} {r : Round}
    {run : TaskRun} {state : Bytes} {now : Int} (hr : r.UnderWay id)
    (hreq : m.request = .acknowledge id run state now)
    (hfind : m.before.rounds.find? id = some r)
    (hacked : ∀ run, r.acked.find? run =
      if run ∈ r.expected then firstHandle? past id run else none) (other : TaskRun) :
    (r.acknowledge run state).1.acked.find? other =
      if other ∈ r.expected then firstHandle? (past ++ [m]) id other else none := by
  rw [Round.find?_acked_acknowledge hr.inProgress, hacked, firstHandle?_append,
    Moment.handle?_of_acknowledge hreq hfind]
  by_cases hmem : other ∈ r.expected
  · simp [hmem]
  · simp [hmem]

/-- No handle was ever sent for an id that was not handed out yet. -/
theorem firstHandle?_eq_none {past : List Moment} {id : Nat} {run : TaskRun}
    (h : ∀ m ∈ past, m.before.rounds.contains id = false) : firstHandle? past id run = none :=
  List.findSome?_eq_none_iff.2 fun m hm => Moment.handle?_of_not_contains (h m hm)

open Coordinator in
/-- Rounds stay tied to their history throughout a run. -/
theorem traced_of_run {outside : Vault → Vault → Prop} {start c : Coordinator}
    {past : List Moment} (h : Run outside start past c) (hstart : start.Orderly)
    (hempty : start.rounds = ∅) :
    Traced past c ∧ ∀ m ∈ past, ∀ id, m.before.rounds.contains id = true → id < c.nextId := by
  induction h with
  | nil => exact ⟨by simp [Traced, hempty], by simp⟩
  | @snoc past c c' vault request events reply run change step ih =>
    obtain ⟨htraced, hold⟩ := ih
    have horderly : (c.withVault vault).Orderly := (Orderly.of_run run hstart).1.withVault vault
    have hle : (c.withVault vault).nextId ≤ c'.nextId := nextId_le_step horderly step
    refine ⟨fun {id r'} hr' => ?_, fun m hm id hin => ?_⟩
    · rcases find?_rounds_step horderly step hr' with
        ⟨policy, now, rfl, rfl, hid, -, -, rfl⟩ |
        ⟨r, hfind, ⟨run', state, now, rfl, -, rfl⟩ | ⟨hreq, rfl⟩⟩
      · -- The round is new, so no run can have sent a handle for it.
        refine ⟨⟨_, List.mem_append_right _ List.mem_cons_self, rfl, rfl, rfl⟩, fun run' => ?_⟩
        have hfresh : ∀ m ∈ past, m.before.rounds.contains id = false := fun m hm => by
          by_contra hin
          have hlt := hold m hm id (by simpa using hin)
          have hnext : id = c.nextId := hid
          omega
        rw [firstHandle?_append, firstHandle?_eq_none hfresh, Moment.handle?_of_ne (by simp)]
        simp [Round.start, Round.takeFuture]
      · -- The round has heard of this moment, so both sides take its handle into account.
        obtain ⟨⟨trigger, hmem, hopens⟩, hacked⟩ := htraced hfind
        obtain ⟨acked, hframe⟩ := Round.acknowledge_frame r run' state
        have hhandles := find?_acked_of_moment (horderly.underWay hfind)
          (show (Moment.mk (c.withVault vault) (.acknowledge id run' state now) events reply
            c').request = _ from rfl) hfind hacked
        rw [hframe] at hhandles ⊢
        exact ⟨⟨trigger, List.mem_append_left _ hmem, hopens.request, hopens.reply,
          hopens.expected⟩, hhandles⟩
      · obtain ⟨⟨trigger, hmem, hopens⟩, hacked⟩ := htraced hfind
        refine ⟨⟨trigger, List.mem_append_left _ hmem, hopens⟩, fun run' => ?_⟩
        rw [hacked, firstHandle?_append, Moment.handle?_of_ne hreq, Option.or_none]
    · rcases List.mem_append.1 hm with hm | hm
      · exact lt_of_lt_of_le (hold m hm id hin) hle
      · obtain rfl := List.mem_singleton.1 hm
        obtain ⟨r, hfind⟩ := Table.contains_iff.1 hin
        exact lt_of_lt_of_le (horderly.numbered hfind) hle

/-! ### Completion -/

/-- What a completing acknowledgment found and did: it was the last one owed to its round, storage
kept all handles and the archive accepted the snapshot. -/
theorem Coordinator.completes_step {m : Moment} {id : Nat} {run : TaskRun} {state : Bytes}
    {now : Int} (hstep : m.before.step m.request = .ok (m.after, m.events, m.reply))
    (hreq : m.request = .acknowledge id run state now)
    (hreply : m.reply = .acknowledged (.ok .completes)) :
    ∃ r r', m.before.rounds.find? id = some r ∧ r.acknowledge run state = (r', .completes) ∧
      m.Registers (draft m.before.archive r' now) := by
  obtain ⟨c, request, events, reply, c'⟩ := m
  dsimp only at hstep hreq hreply
  subst hreq hreply
  cases Performs.of_step hstep with
  | acknowledge hack =>
    rcases acknowledge_cases c id run state now with ⟨-, he⟩ | ⟨r, hfind, ⟨r', hr', he⟩ |
      ⟨hres, he⟩⟩
    · cases he.symm.trans hack
    · refine ⟨r, r', hfind, hr', ?_⟩
      rcases finalize_cases c.archive r' now with ⟨vault, kept, failure, -, hfinal⟩ |
        ⟨vault, kept, hkeep, ⟨a, added, e, -, hfinal⟩ | ⟨a, added, gone, hadd, hfinal⟩⟩
      · obtain ⟨budget, breach, -, hcomplete⟩ := complete_of_error hfinal
        cases hcomplete.symm.trans (he.symm.trans hack)
      · obtain ⟨budget, breach, -, hcomplete⟩ := complete_of_error hfinal
        cases hcomplete.symm.trans (he.symm.trans hack)
      · obtain ⟨budget, hcomplete⟩ := complete_of_ok hfinal
        cases hcomplete.symm.trans (he.symm.trans hack)
        obtain rfl := Vault.events_of_persistAll hkeep
        exact ⟨vault, added, _, gone, hkeep, hadd, rfl⟩
    · refine absurd ?_ hres
      have hresult := congrArg (fun p => p.2.2) (he.symm.trans hack)
      exact Except.ok.inj hresult

/-- Whenever an acknowledgment completes a checkpoint, the archive has accepted a snapshot whose
runs are exactly those that were current in their subtasks at the trigger, each with the first
handle that it sent while the checkpoint was under way, after storage had kept all of them; its
policy and its time are those of the trigger. -/
theorem completed_is_triggered_cut {settings : Settings} {archive : Archive} {hasHandler : Bool}
    {outside : Vault → Vault → Prop} {start c : Coordinator} {past future : List Moment}
    {m : Moment} {id : Nat} {run : TaskRun} {state : Bytes} {now : Int}
    (hopen : Coordinator.open? settings archive hasHandler = .ok start)
    (hrun : Run outside start (past ++ m :: future) c)
    (hreq : m.request = .acknowledge id run state now)
    (hreply : m.reply = .acknowledged (.ok .completes)) :
    ∃ trigger ∈ past, ∃ policy time s,
      trigger.request = .trigger policy time ∧ trigger.reply = .triggered (.ok id) ∧
      m.Registers s ∧ s.id = id ∧ s.policy = policy ∧ s.triggeredAt = time ∧
      (∀ r, s.handles.contains r = true ↔
        ∃ taskState, trigger.before.tasks.find? r.slot = some (r, taskState)) ∧
      ∀ r, s.handles.contains r = true → s.handles.find? r = firstHandle? (past ++ [m]) id r := by
  have hstart := Coordinator.orderly_of_open hopen
  have hempty : start.rounds = ∅ := Coordinator.rounds_of_open hopen
  obtain ⟨d, vault, hpast, -, hbefore, hstep, -⟩ := hrun.moment
  have horderly : m.before.Orderly := by
    rw [hbefore]
    exact (Coordinator.Orderly.of_run hpast hstart).1.withVault vault
  obtain ⟨r, r', hfind, hack, hregisters⟩ :=
    Coordinator.completes_step hstep hreq hreply
  have htraced : Traced past m.before := by
    rw [hbefore]
    exact (traced_of_run hpast hstart hempty).1
  obtain ⟨⟨trigger, hmem, hopens⟩, hacked⟩ := htraced hfind
  have hunder := horderly.underWay hfind
  obtain ⟨acked, hframe⟩ := Round.acknowledge_frame r run state
  rw [hack] at hframe
  obtain rfl : r' = _ := hframe
  have htrigger := ((Coordinator.Orderly.of_run hpast hstart).2 trigger hmem).1
  refine ⟨trigger, hmem, r.policy, r.triggeredAt, _, hopens.request, hopens.reply, hregisters,
    hunder.own, rfl, rfl, fun other => ?_, fun other hother => ?_⟩
  · refine (hunder.hasAck_iff_of_completes hack other).trans ?_
    rw [hopens.expected, TaskRun.mem_sortDistinct, htrigger.mem_runs_iff]
  · have hmember := (hunder.hasAck_iff_of_completes hack other).1 hother
    have hhandles := find?_acked_of_moment hunder hreq hfind hacked other
    rw [hack, if_pos hmember] at hhandles
    exact hhandles

/-- Two tasks, one of which is restarted after its acknowledgment and acknowledges again as a new
run, before the other one's acknowledgment completes the checkpoint. -/
def restartRequests : List Request :=
  [.register ⟨1, 0, 0⟩ .running, .register ⟨2, 0, 0⟩ .running,
    .trigger (.ofRetention .onFailure) 10, .acknowledge 1 ⟨1, 0, 0⟩ [7] 20,
    .update ⟨1, 0, 1⟩ .running, .acknowledge 1 ⟨1, 0, 1⟩ [8] 25,
    .acknowledge 1 ⟨2, 0, 0⟩ [9] 30]

theorem completed_is_triggered_cut_after_restart :
    ∃ start c past m,
      Coordinator.open? .default ⟨.of (.memory ∅) .none, .empty 1⟩ false = .ok start ∧
      start.perform restartRequests = (past ++ [m], c) ∧
      ∃ trigger ∈ past, ∃ policy time s,
        trigger.request = .trigger policy time ∧ trigger.reply = .triggered (.ok 1) ∧
        m.Registers s ∧ s.id = 1 ∧ s.policy = policy ∧ s.triggeredAt = time ∧
        (∀ r, s.handles.contains r = true ↔
          ∃ taskState, trigger.before.tasks.find? r.slot = some (r, taskState)) ∧
        ∀ r, s.handles.contains r = true → s.handles.find? r = firstHandle? (past ++ [m]) 1 r := by
  obtain ⟨start, c, past, m, hopen, hperform, hreq, hreply⟩ : ∃ start c past m,
      Coordinator.open? .default ⟨.of (.memory ∅) .none, .empty 1⟩ false = .ok start ∧
      start.perform restartRequests = (past ++ [m], c) ∧
      m.request = .acknowledge 1 ⟨2, 0, 0⟩ [9] 30 ∧ m.reply = .acknowledged (.ok .completes) :=
    ⟨_, _, _, _, rfl, Prod.ext (List.dropLast_append_getLast (List.cons_ne_nil _ _)).symm rfl,
      rfl, rfl⟩
  have hrun : Run Eq start _ _ := Run.of_perform (fun _ => rfl) start restartRequests
  rw [hperform] at hrun
  exact ⟨start, c, past, m, hopen, hperform,
    completed_is_triggered_cut hopen hrun hreq hreply⟩

end Checkpointing

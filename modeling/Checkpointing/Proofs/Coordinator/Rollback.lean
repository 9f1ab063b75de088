import Mathlib.Tactic
import Checkpointing.Proofs.Coordinator.Settlement
import Checkpointing.Proofs.Coordinator.Shelf

/-!
# Rounds that could not be stored

When the snapshot of a full round cannot be stored, the round is over and everything else is as
before: what is registered, the other rounds, and the states of all other checkpoints.

* `persist_of_finalize`: until a round is given up nothing is asked of storage but to keep its
  states;
* `RolledBack` says what a failed acknowledgment leaves and what is heard of it,
  `rolledBack_of_step` that it is so;
* `failed_round_rolls_back` is the main statement, for every run.
-/

namespace Checkpointing

open Medium

/-- A moment in which a full round could not be stored, for a reason: the round is over, and
nothing else has changed but the count of failures and what storage keeps of this checkpoint. -/
structure RolledBack (m : Moment) (id : Nat) (reason : SnapshotError) : Prop where
  state : m.after = { m.before with
    archive := m.after.archive
    rounds := m.before.rounds.erase id
    budget := (m.before.budget.failure reason).1 }
  /-- The registered snapshots and the backlog are the same. -/
  retention : m.after.archive.retention = m.before.archive.retention
  /-- Storage is asked to keep states and then to clean up, everybody hears the reason, and the
  participants are told; nothing else is heard but that the job may be failed. -/
  heard : ∃ r kept refused, m.before.rounds.find? id = some r ∧
    m.events = kept ++ .storage (.cleanup id) refused :: (verdict id (.error reason) ++
      (r.expected.map fun run => .signal (.abort run id reason)) ++
      (m.before.budget.failure reason).2) ∧
    (∀ e ∈ kept, ∃ run state refused, e = .storage (.persist id run state) refused) ∧
    (refused = false → ∀ run state, m.after.archive.vault.medium.load id run ≠ .ok state)
  others : ∀ i ≠ id, ∀ run state, m.after.archive.vault.medium.load i run = .ok state ↔
    m.before.archive.vault.medium.load i run = .ok state

namespace Coordinator

variable {c c' : Coordinator} {id : Nat} {run : TaskRun} {state : Bytes} {now : Int}
  {events : List Event} {reason : SnapshotError}

/-- Before a round is given up nothing is asked of storage but to keep its states. -/
theorem persist_of_finalize {a a' : Archive} {r : Round} {kept : List Event}
    (h : finalize a r now = (a', kept, .error reason)) :
    ∀ e ∈ kept, ∃ run state refused, e = .storage (.persist r.id run state) refused := by
  have hpersist := (a.vault.addressed r.id r.policy).persist_of_persistAll r.id r.acked.entries
  have hkept : kept = ((a.vault.addressed r.id r.policy).persistAll r.id r.acked.entries).2.1 := by
    rcases finalize_cases a r now with ⟨vault, persisted, failure, hkeep, hf⟩ |
      ⟨vault, persisted, hkeep, ⟨a₁, added, e, hadd, hf⟩ | ⟨_, _, _, -, hf⟩⟩ <;>
      cases hf.symm.trans h <;> rw [hkeep]
    -- A snapshot that is not registered makes no requests.
    rcases Archive.add_cases { a with vault := vault } (draft a r now) with
      ⟨-, he⟩ | ⟨-, ⟨medium, failure, -, he⟩ | ⟨medium, -, he⟩⟩ <;>
      cases he.symm.trans hadd <;> exact List.append_nil _
  intro e he
  rw [hkept] at he
  obtain ⟨entry, -, refused, rfl⟩ := hpersist e he
  exact ⟨entry.1, entry.2, refused, rfl⟩

theorem rolledBack_of_step (hc : c.Orderly) (hm : c.archive.vault.medium.Housed)
    (h : c.step (.acknowledge id run state now) =
      .ok (c', events, .acknowledged (.error reason))) :
    RolledBack ⟨c, .acknowledge id run state now, events, .acknowledged (.error reason), c'⟩ id
      reason := by
  cases Performs.of_step h with
  | acknowledge hack =>
    rcases acknowledge_cases c id run state now with ⟨-, he⟩ | ⟨r, hfind, ⟨r', hr', he⟩ | ⟨-, he⟩⟩
    · cases he.symm.trans hack
    · rcases hfinal : finalize c.archive r' now with ⟨a, kept, cause | s⟩
      · obtain ⟨budget, breach, hbudget, hfailed⟩ := complete_of_error hfinal
        cases hfailed.symm.trans (he.symm.trans hack)
        have hfull := (hc.underWay hfind).full_of_completes hr'
        have hkept := persist_of_finalize hfinal
        obtain ⟨hretention, -, hspares⟩ := finalize_of_error hfinal
        rw [hfull.own] at hkept hspares
        have hhoused : a.vault.medium.Housed := (hspares hm (id + 1) (by omega)).housed hm
        rw [Round.farewell_eq_verdict hfull.toFollowed, hfull.own]
        obtain ⟨-, -, -, rfl, -⟩ := Round.acknowledge_eq_completes hr'
        refine ⟨by rw [hbudget], hretention, ?_, fun i hi run state => ?_⟩
        · rw [hbudget]
          rcases Vault.request_cases_of_housed hhoused (Or.inr (Eq.refl (StorageCall.cleanup id)))
            with ⟨failure, hcall⟩ | ⟨hcall, hgone⟩ <;> rw [hcall]
          · exact ⟨r, kept, true, hfind, rfl, hkept, by simp⟩
          · exact ⟨r, kept, false, hfind, rfl, hkept, fun _ => hgone⟩
        · have hcleanup := Vault.spares_request hhoused (.cleanup id) (Ne.symm hi)
          exact ((hspares hm i hi).trans hcleanup).load hm
      · obtain ⟨budget, hstored⟩ := complete_of_ok hfinal
        cases hstored.symm.trans (he.symm.trans hack)
    · cases he.symm.trans hack

end Coordinator

/-! ### The main statement -/

section

variable {settings : Settings} {archive : Archive} {hasHandler : Bool} {start c : Coordinator}
  {history : List Moment}

/-- What a failed acknowledgment leaves, in every run and whatever fails before and afterwards: it
was the last one that its round waited for, and the round could not be stored.  The round is over,
for the reason that is answered; what is registered and all other rounds, with their
acknowledgments, are as before, and so are the tasks, the next id and the time of the latest
trigger.  Nothing is given up, no other round ends, and nobody is told of a completed checkpoint.
Storage is asked to clean up; unless it refuses, no state of this checkpoint can be loaded.  The
states of all other checkpoints can be loaded as before. -/
theorem failed_round_rolls_back (hascending : Retention.Ascending archive.snapshots)
    (hhoused : archive.vault.medium.Housed)
    (hopen : Coordinator.open? settings archive hasHandler = .ok start)
    (hrun : Run SameMedium start history c) {m : Moment} (hm : m ∈ history) {id : Nat}
    {run : TaskRun} {state : Bytes} {now : Int} {reason : SnapshotError}
    (hrequest : m.request = .acknowledge id run state now)
    (hreply : m.reply = .acknowledged (.error reason)) : RolledBack m id reason := by
  have horderly := Coordinator.orderly_of_open hopen
  obtain ⟨harchive, -, hshelved⟩ := Coordinator.state_of_open hascending hopen
  rw [← harchive] at hhoused
  have hbase := (Coordinator.housed_of_run hrun horderly hshelved hhoused).2 m hm
  have hc := ((Coordinator.Orderly.of_run hrun horderly).2 m hm).1
  have hstep := hrun.step_of_mem hm
  obtain ⟨before, request, events, reply, after⟩ := m
  dsimp only at hrequest hreply hbase hc hstep
  subst hrequest hreply
  exact Coordinator.rolledBack_of_step hc hbase hstep

end

/-- Two savepoints of two tasks, of which one acknowledges the first savepoint and both the second
one. -/
def refusedSavepoint : List Request :=
  [.register ⟨1, 0, 0⟩ .running, .register ⟨1, 1, 0⟩ .running,
    .trigger (.savepoint true .canonical) 10, .trigger (.savepoint true .canonical) 20,
    .acknowledge 1 ⟨1, 0, 0⟩ [7] 30, .acknowledge 2 ⟨1, 0, 0⟩ [8] 40,
    .acknowledge 2 ⟨1, 1, 0⟩ [9] 50]

/-- The second state of the second savepoint is refused: the first savepoint is still under way, and
nothing is left of the second one. -/
theorem failed_round_rolls_back_of_savepoint : ∃ archive start history c m failure,
    Archive.open? (.of (.memory ∅) (FaultRule.plan [⟨.persist, none, some 1⟩])) 1 = .ok archive ∧
    Coordinator.open? .default archive false = .ok start ∧
    start.perform refusedSavepoint = (history, c) ∧ m ∈ history ∧
    m.request = .acknowledge 2 ⟨1, 1, 0⟩ [9] 50 ∧
    m.reply = .acknowledged (.error (.storage failure)) ∧ RolledBack m 2 (.storage failure) ∧
    m.before.rounds.keys = [1, 2] ∧ m.after.rounds.keys = [1] ∧
    requestIds m.events = [2, 2, 2] := by
  obtain ⟨archive, start, history, c, m, failure, harchive, hopen, hperform, hm, hrequest, hreply,
      hbefore, hafter, hevents⟩ : ∃ archive start history c m failure,
        Archive.open? (.of (.memory ∅) (FaultRule.plan [⟨.persist, none, some 1⟩])) 1 =
          .ok archive ∧
        Coordinator.open? .default archive false = .ok start ∧
        start.perform refusedSavepoint = (history, c) ∧ m ∈ history ∧
        m.request = .acknowledge 2 ⟨1, 1, 0⟩ [9] 50 ∧
        m.reply = .acknowledged (.error (.storage failure)) ∧ m.before.rounds.keys = [1, 2] ∧
        m.after.rounds.keys = [1] ∧ requestIds m.events = [2, 2, 2] :=
    ⟨_, _, _, _, _, _, rfl, rfl, rfl, List.mem_of_getLast? rfl, rfl, rfl, rfl, rfl, rfl⟩
  have hrun : Run SameMedium start _ _ := Run.of_perform SameMedium.refl start refusedSavepoint
  rw [hperform] at hrun
  cases harchive
  have hascending : Retention.Ascending
      (Archive.snapshots ⟨.of (.memory ∅) (FaultRule.plan [⟨.persist, none, some 1⟩]), .empty 1⟩) :=
    .nil
  have hrolled :=
    failed_round_rolls_back hascending (.memory ∅) hopen hrun hm hrequest hreply
  exact ⟨_, start, history, c, m, failure, rfl, hopen, hperform, hm, hrequest, hreply, hrolled,
    hbefore, hafter, hevents⟩

end Checkpointing

import Mathlib.Tactic
import Checkpointing.Proofs.Recovery.Firings
import Checkpointing.Simulation.Crew

/-!
# Failures of a simulated job

A simulated job is given two failures: its first subtask fails on one trigger, its last subtask
declines another one.  Each subtask has one tracked plan for what it is given.

* `FailurePlan.configured` is the failure that is given for a trigger;
* `FailurePlan.Stands` is the plan of a subtask that has seen so many triggers: it waits, or it has
  fired and is silent; `stands_decide` is the step;
* `Drill.injects_first` is the main statement: a subtask fails as given on the first trigger for
  which it is given a failure, and never again, so that of two failures given to a single subtask
  the later one does not happen.
-/

namespace Checkpointing
namespace FailurePlan

variable {subtask : Nat} {ledger : FiringLedger}

/-! ### What is due -/

/-- The failure given for the trigger of a number that a subtask sees: the first subtask fails on
the one, the last one declines the other. -/
def configured (parallelism : Nat) (failAfter declineAfter : Option Nat) (subtask number : Nat) :
    Option FailureKind :=
  if subtask = 0 ∧ failAfter = some number then some .userException
  else if subtask + 1 = parallelism ∧ declineAfter = some number then some .declineCheckpoint
  else none

/-- Unless a single subtask is given both failures, each subtask is given one at most. -/
theorem configured_unique {parallelism number number' : Nat} {failAfter declineAfter : Option Nat}
    (hsingle : parallelism ≠ 1 ∨ failAfter = none ∨ declineAfter = none)
    (h : configured parallelism failAfter declineAfter subtask number ≠ none)
    (h' : configured parallelism failAfter declineAfter subtask number' ≠ none) :
    number = number' := by
  unfold configured at h h'
  grind

/-- The failures that a subtask is given, each with the number of its trigger. -/
def given (parallelism : Nat) (failAfter declineAfter : Option Nat) (subtask : Nat) :
    List (Nat × FailureKind) :=
  ((if subtask = 0 then failAfter else none).map fun n => (n, .userException)).toList ++
    ((if subtask + 1 = parallelism then declineAfter else none).map fun n =>
      (n, .declineCheckpoint)).toList

/-- The first of several failures that is for the trigger of a number. -/
def due (failures : List (Nat × FailureKind)) (number : Nat) : Option FailureKind :=
  failures.findSome? fun f => if number = f.1 then some f.2 else none

theorem due_toList (o : Option Nat) (kind : FailureKind) (number : Nat) :
    due (o.map fun n => (n, kind)).toList number = if o = some number then some kind else none := by
  cases o with
  | none => rfl
  | some n =>
    rw [Option.map_some, Option.toList_some, due, List.findSome?_singleton]
    exact if_congr (by rw [Option.some_inj, eq_comm]) rfl rfl

theorem due_given (parallelism : Nat) (failAfter declineAfter : Option Nat) (subtask number : Nat) :
    due (given parallelism failAfter declineAfter subtask) number =
      configured parallelism failAfter declineAfter subtask number := by
  rw [due, given, List.findSome?_append]
  refine (congrArg₂ Option.or (due_toList _ _ number) (due_toList _ _ number)).trans ?_
  simp only [Option.ite_none_right_eq_some, configured]
  split <;> rfl

/-! ### One call -/

/-- The plan for one failure, after so many triggers. -/
def watch (calls : Nat) : Nat × FailureKind → FailurePlan
  | (n, .userException) => once (onCall n .userException calls) false
  | (n, kind) => onCall n kind calls

/-- The plan of a subtask that has seen so many triggers and has not failed. -/
def standing (subtask : Nat) (failures : List (Nat × FailureKind)) (calls : Nat) : FailurePlan :=
  match failures.map (watch calls) with
  | [] => never
  | plans => tracked subtask 0 (anyOf plans)

theorem injected_eq_standing (parallelism : Nat) (failAfter declineAfter : Option Nat)
    (subtask : Nat) : injected parallelism failAfter declineAfter subtask =
      standing subtask (given parallelism failAfter declineAfter subtask) 0 := by
  rw [injected, injections, standing, given]
  cases (if subtask = 0 then failAfter else none) <;>
    cases (if subtask + 1 = parallelism then declineAfter else none) <;> rfl

/-- Members that leave the ledger as it is are asked up to the first that says to fail. -/
theorem decideFirst_map {α : Type} {plan plan' : α → FailurePlan}
    {decision : α → Option FailureKind}
    (hdecision : ∀ a, (decide subtask ledger (plan a)).2 = (ledger, decision a))
    (hplan : ∀ a, decision a = none → (decide subtask ledger (plan a)).1 = plan' a) (l : List α) :
    (decideFirst subtask ledger (l.map plan)).2 = (ledger, l.findSome? decision) ∧
    (l.findSome? decision = none →
      (decideFirst subtask ledger (l.map plan)).1 = l.map plan') := by
  induction l with
  | nil =>
    rw [List.map_nil, List.map_nil, decideFirst_nil]
    exact ⟨rfl, fun _ => rfl⟩
  | cons a l ih =>
    rw [List.map_cons, List.map_cons, List.findSome?_cons]
    cases ha : decision a with
    | some kind =>
      have hdecide : decide subtask ledger (plan a) =
          ((decide subtask ledger (plan a)).1, ledger, some kind) :=
        Prod.ext rfl ((hdecision a).trans (by rw [ha]))
      rw [decideFirst_cons_of_some hdecide]
      exact ⟨rfl, nofun⟩
    | none =>
      have hdecide : decide subtask ledger (plan a) = (plan' a, ledger, none) :=
        Prod.ext (hplan a ha) ((hdecision a).trans (by rw [ha]))
      rw [decideFirst_cons_of_none hdecide]
      exact ⟨ih.1, fun h => by rw [ih.2 h]⟩

theorem decide_watch (subtask : Nat) (ledger : FiringLedger) (calls : Nat)
    (f : Nat × FailureKind) :
    (decide subtask ledger (watch calls f)).2 =
      (ledger, if nextCall calls = f.1 then some f.2 else none) := by
  obtain ⟨n, kind⟩ := f
  cases kind with
  | userException => rw [watch, decide_once_false, decide_onCall]
  | declineCheckpoint | executorLoss =>
    rw [watch, decide_onCall]
    exact nofun

theorem watch_decide (subtask : Nat) (ledger : FiringLedger) (calls : Nat) (f : Nat × FailureKind)
    (h : (if nextCall calls = f.1 then some f.2 else none) = none) :
    (decide subtask ledger (watch calls f)).1 = watch (nextCall calls) f := by
  obtain ⟨n, kind⟩ := f
  cases kind with
  | userException =>
    rw [watch, decide_once_false, decide_onCall, watch]
    exact congrArg (once _) (congrArg Option.isSome h)
  | declineCheckpoint | executorLoss =>
    rw [watch, decide_onCall, watch]
    · exact nofun
    · exact nofun

/-- A plan that has not failed does what is due: it counts on, or it fails and that is noted. -/
theorem decide_standing {failures : List (Nat × FailureKind)}
    (hledger : ⟨0, subtask, subtask⟩ ∉ ledger) (calls : Nat) :
    (due failures (nextCall calls) = none ∧
      decide subtask ledger (standing subtask failures calls) =
        (standing subtask failures (nextCall calls), ledger, none)) ∨
    ∃ kind inner, due failures (nextCall calls) = some kind ∧
      decide subtask ledger (standing subtask failures calls) =
        (tracked subtask 0 inner, ledger ++ [⟨0, subtask, subtask⟩], some kind) := by
  obtain ⟨hdecision, hplans⟩ :=
    decideFirst_map (decide_watch subtask ledger calls) (watch_decide subtask ledger calls) failures
  rw [← due] at hdecision hplans
  cases failures with
  | nil => exact .inl ⟨rfl, decide_never⟩
  | cons f failures =>
    have hstanding (calls : Nat) : standing subtask (f :: failures) calls =
      tracked subtask 0 (anyOf ((f :: failures).map (watch calls))) := rfl
    rw [hstanding, hstanding, decide_tracked_of_not_mem hledger, decide_anyOf, hdecision]
    cases hdue : due (f :: failures) (nextCall calls) with
    | none => exact .inl ⟨rfl, by rw [hplans hdue]; rfl⟩
    | some kind =>
      refine .inr ⟨kind, _, rfl, Prod.ext rfl (Prod.ext ?_ rfl)⟩
      exact if_neg hledger

/-! ### Many triggers -/

/-- The plan of a subtask that has seen so many triggers. -/
inductive Stands (subtask : Nat) (failures : List (Nat × FailureKind)) (seen : Nat)
    (ledger : FiringLedger) : FailurePlan → Prop
  /-- It waits, since nothing was due on any of them. -/
  | waiting (nothing : ∀ number, 0 < number → number ≤ seen → due failures number = none)
      (unknown : ⟨0, subtask, subtask⟩ ∉ ledger) :
      Stands subtask failures seen ledger (standing subtask failures (min seen Word.max32))
  /-- It has fired, since something was due on one of them, and is not asked any more. -/
  | spent {number : Nat} (positive : 0 < number) (early : number ≤ seen)
      (something : due failures number ≠ none) (known : ⟨0, subtask, subtask⟩ ∈ ledger)
      (inner : FailurePlan) :
      Stands subtask failures seen ledger (tracked subtask 0 inner)

variable {failures : List (Nat × FailureKind)} {seen : Nat} {p : FailurePlan}

/-- What others note in the ledger does not matter. -/
theorem Stands.of_ledger {ledger' : FiringLedger} (h : Stands subtask failures seen ledger p)
    (hledger : ⟨0, subtask, subtask⟩ ∈ ledger' ↔ ⟨0, subtask, subtask⟩ ∈ ledger) :
    Stands subtask failures seen ledger' p := by
  cases h with
  | waiting nothing unknown => exact .waiting nothing (mt hledger.1 unknown)
  | spent positive early something known inner =>
    exact .spent positive early something (hledger.2 known) inner

/-- Where the count of calls stands still, nothing is due that was not due before. -/
theorem due_nextCall (hfailures : ∀ f ∈ failures, f.1 ≤ Word.max32)
    (hnothing : ∀ number, 0 < number → number ≤ seen → due failures number = none) :
    due failures (nextCall (min seen Word.max32)) = due failures (seen + 1) := by
  rw [nextCall]
  by_cases hseen : seen < Word.max32
  · rw [Nat.min_eq_left hseen.le, Nat.min_eq_left hseen]
  · have hlate : due failures (seen + 1) = none := by
      refine List.findSome?_eq_none_iff.2 fun f hf => if_neg ?_
      have := hfailures f hf
      omega
    rw [hlate, show min (min seen Word.max32 + 1) Word.max32 = Word.max32 by omega]
    exact hnothing _ (by decide) (by omega)

/-- What a call does on the next trigger. -/
structure Reacts (subtask : Nat) (failures : List (Nat × FailureKind)) (seen : Nat)
    (ledger : FiringLedger) (p' : FailurePlan) (ledger' : FiringLedger)
    (decision : Option FailureKind) : Prop where
  stands : Stands subtask failures (seen + 1) ledger' p'
  others : ∀ f, f ≠ ⟨0, subtask, subtask⟩ → (f ∈ ledger' ↔ f ∈ ledger)
  first : (∀ number, 0 < number → number ≤ seen → due failures number = none) →
    decision = due failures (seen + 1)
  later : ∀ number, 0 < number → number ≤ seen → due failures number ≠ none → decision = none

theorem stands_decide (hfailures : ∀ f ∈ failures, f.1 ≤ Word.max32)
    (h : Stands subtask failures seen ledger p) :
    Reacts subtask failures seen ledger (decide subtask ledger p).1 (decide subtask ledger p).2.1
      (decide subtask ledger p).2.2 := by
  cases h with
  | waiting nothing unknown =>
    have hnext := due_nextCall hfailures nothing
    have hlater (decision : Option FailureKind) (number : Nat) (hpos : 0 < number)
        (hle : number ≤ seen) (hdue : due failures number ≠ none) : decision = none :=
      absurd (nothing number hpos hle) hdue
    rcases decide_standing unknown (min seen Word.max32) with
      ⟨hdue, hdecide⟩ | ⟨kind, inner, hdue, hdecide⟩
    · rw [hdecide]
      rw [hnext] at hdue
      refine ⟨?_, fun _ _ => Iff.rfl, fun _ => hdue.symm, hlater _⟩
      have hcalls : nextCall (min seen Word.max32) = min (seen + 1) Word.max32 := by
        rw [nextCall]
        omega
      rw [hcalls]
      refine .waiting (fun number hpos hle => ?_) unknown
      rcases Nat.lt_or_eq_of_le hle with hlt | rfl
      · exact nothing number hpos (Nat.le_of_lt_succ hlt)
      · exact hdue
    · rw [hdecide]
      rw [hnext] at hdue
      refine ⟨?_, fun f hf => ?_, fun _ => hdue.symm, hlater _⟩
      · refine .spent (Nat.succ_pos seen) le_rfl ?_ (List.mem_append_right _ ?_) inner
        · rw [hdue]
          exact nofun
        · exact List.mem_singleton_self _
      · rw [List.mem_append, List.mem_singleton, or_iff_left hf]
  | spent positive early something known inner =>
    rw [decide_tracked_of_mem known]
    refine ⟨?_, fun _ _ => Iff.rfl, fun hnothing => ?_, fun _ _ _ _ => rfl⟩
    · exact .spent positive (early.trans (Nat.le_succ seen)) something known inner
    · exact absurd (hnothing _ positive early) something

end FailurePlan

/-! ### All subtasks -/

namespace Drill

open FailurePlan

/-- The plans of all subtasks of a job with given failures, and an empty ledger. -/
def injected (parallelism : Nat) (failAfter declineAfter : Option Nat) : Drill :=
  ⟨(List.range parallelism).map (FailurePlan.injected parallelism failAfter declineAfter), []⟩

/-- One trigger after the other, each for one of the subtasks. -/
def triggers (subtasks : List Nat) : List Step := subtasks.map fun i => .ask i i

/-- What the plan of a subtask decides on the next trigger. -/
def answer (d : Drill) (i : Nat) : Option FailureKind :=
  d.plans[i]?.bind fun p => (decide i d.ledger p).2.2

/-- The plans of all subtasks that have seen certain triggers. -/
structure Awaits (parallelism : Nat) (failAfter declineAfter : Option Nat) (past : List Nat)
    (d : Drill) : Prop where
  length : d.plans.length = parallelism
  stands : ∀ i p, d.plans[i]? = some p →
    Stands i (given parallelism failAfter declineAfter i) (past.count i) d.ledger p

variable {parallelism : Nat} {failAfter declineAfter : Option Nat} {past : List Nat} {d : Drill}

theorem awaits_injected (parallelism : Nat) (failAfter declineAfter : Option Nat) :
    Awaits parallelism failAfter declineAfter [] (injected parallelism failAfter declineAfter) where
  length := by rw [injected, List.length_map, List.length_range]
  stands i p hp := by
    rw [injected, List.getElem?_map, Option.map_eq_some_iff] at hp
    obtain ⟨j, hj, rfl⟩ := hp
    obtain ⟨hi, rfl⟩ := List.getElem?_eq_some_iff.1 hj
    rw [List.getElem_range, injected_eq_standing]
    refine .waiting (fun number hpos hle => ?_) List.not_mem_nil
    exact absurd hle (Nat.not_le_of_lt hpos)

/-- No failure is given for a trigger beyond the greatest number. -/
theorem le_of_mem_given (hfail : ∀ n ∈ failAfter, n ≤ Word.max32)
    (hdecline : ∀ n ∈ declineAfter, n ≤ Word.max32) (i : Nat) :
    ∀ f ∈ given parallelism failAfter declineAfter i, f.1 ≤ Word.max32 := by
  intro f hf
  rw [given, List.mem_append, Option.mem_toList, Option.mem_toList, Option.map_eq_some_iff,
    Option.map_eq_some_iff] at hf
  rcases hf with ⟨n, hn, rfl⟩ | ⟨n, hn, rfl⟩
  · exact hfail n (Option.ite_none_right_eq_some.1 hn).2
  · exact hdecline n (Option.ite_none_right_eq_some.1 hn).2

theorem awaits_perform (hfail : ∀ n ∈ failAfter, n ≤ Word.max32)
    (hdecline : ∀ n ∈ declineAfter, n ≤ Word.max32)
    (h : Awaits parallelism failAfter declineAfter past d) (j : Nat) :
    Awaits parallelism failAfter declineAfter (past ++ [j]) (d.perform (.ask j j)) := by
  rw [perform]
  cases hj : d.plans[j]? with
  | none =>
    refine ⟨h.length, fun i p hp => ?_⟩
    have hne : j ≠ i := by
      rintro rfl
      rw [hj] at hp
      cases hp
    rw [List.count_append, List.count_singleton, if_neg (by simpa using hne), Nat.add_zero]
    exact h.stands i p hp
  | some q =>
    have hreacts := stands_decide (le_of_mem_given hfail hdecline j) (h.stands j q hj)
    refine ⟨by rw [List.length_set, h.length], fun i p hp => ?_⟩
    rw [List.getElem?_set] at hp
    by_cases hne : j = i
    · subst hne
      have hlt : j < d.plans.length := (List.getElem?_eq_some_iff.1 hj).1
      rw [if_pos rfl, if_pos hlt] at hp
      cases hp
      rw [List.count_append, List.count_singleton_self]
      exact hreacts.stands
    · rw [if_neg hne] at hp
      rw [List.count_append, List.count_singleton, if_neg (by simpa using hne), Nat.add_zero]
      refine (h.stands i p hp).of_ledger (hreacts.others _ fun heq => ?_)
      exact hne (congrArg Firing.id heq).symm

theorem awaits_run (hfail : ∀ n ∈ failAfter, n ≤ Word.max32)
    (hdecline : ∀ n ∈ declineAfter, n ≤ Word.max32)
    (h : Awaits parallelism failAfter declineAfter past d) (subtasks : List Nat) :
    Awaits parallelism failAfter declineAfter (past ++ subtasks) (d.run (triggers subtasks)).2 := by
  induction subtasks generalizing past d with
  | nil =>
    rw [List.append_nil]
    exact h
  | cons j subtasks ih =>
    rw [List.append_cons]
    exact ih (awaits_perform hfail hdecline h j)

/-- A simulated job fails as given, but each subtask once.  Let the subtasks of a job see triggers,
in any order and any number of them.  If no failure was given for the triggers that a subtask has
seen so far, its plan decides on the next one as it was given; and if there was one, it decides on
none any more.  So each subtask fails exactly as given, except for a single subtask that is given
both failures: the later of them does not happen. -/
theorem injects_first (hfail : ∀ n ∈ failAfter, n ≤ Word.max32)
    (hdecline : ∀ n ∈ declineAfter, n ≤ Word.max32) (past : List Nat) {i : Nat}
    (hi : i < parallelism) :
    ((∀ number, 0 < number → number ≤ past.count i →
        configured parallelism failAfter declineAfter i number = none) →
      ((injected parallelism failAfter declineAfter).run (triggers past)).2.answer i =
        configured parallelism failAfter declineAfter i (past.count i + 1)) ∧
    (∀ number, 0 < number → number ≤ past.count i →
      configured parallelism failAfter declineAfter i number ≠ none →
        ((injected parallelism failAfter declineAfter).run (triggers past)).2.answer i = none) ∧
    (parallelism ≠ 1 ∨ failAfter = none ∨ declineAfter = none →
      ((injected parallelism failAfter declineAfter).run (triggers past)).2.answer i =
        configured parallelism failAfter declineAfter i (past.count i + 1)) := by
  have hawaits :=
    awaits_run hfail hdecline (awaits_injected parallelism failAfter declineAfter) past
  rw [List.nil_append] at hawaits
  obtain ⟨p, hp⟩ : ∃ p,
      ((injected parallelism failAfter declineAfter).run (triggers past)).2.plans[i]? = some p :=
    ⟨_, List.getElem?_eq_getElem (hawaits.length.symm ▸ hi)⟩
  have hreacts := stands_decide (le_of_mem_given hfail hdecline i) (hawaits.stands i p hp)
  simp only [← due_given, answer, hp, Option.bind_some]
  refine ⟨hreacts.first, hreacts.later, fun hsingle => ?_⟩
  by_cases hnothing : ∀ number, 0 < number → number ≤ past.count i →
      due (given parallelism failAfter declineAfter i) number = none
  · exact hreacts.first hnothing
  · simp only [not_forall] at hnothing
    obtain ⟨number, hpos, hle, hdue⟩ := hnothing
    rw [hreacts.later number hpos hle hdue]
    by_contra hnext
    rw [due_given] at hdue hnext
    have heq := configured_unique hsingle hdue (Ne.symm hnext)
    omega

/-- A single subtask declines the first trigger, as given; the failure given for the second one does
not happen. -/
theorem injects_first_of_single :
    configured 1 (some 2) (some 1) 0 1 = some .declineCheckpoint ∧
    ((injected 1 (some 2) (some 1)).run (triggers [])).2.answer 0 = some .declineCheckpoint ∧
    configured 1 (some 2) (some 1) 0 2 = some .userException ∧
    ((injected 1 (some 2) (some 1)).run (triggers [0])).2.answer 0 = none := by
  have hfail : ∀ n ∈ some 2, n ≤ Word.max32 := by decide
  have hdecline : ∀ n ∈ some 1, n ≤ Word.max32 := by decide
  have hstart := injects_first hfail hdecline [] Nat.one_pos
  have hnext := injects_first hfail hdecline [0] Nat.one_pos
  refine ⟨by decide, hstart.1 ?_, by decide, hnext.2.1 1 Nat.one_pos le_rfl (by decide)⟩
  exact fun number hpos hle => absurd hle (Nat.not_le_of_lt hpos)

/-- It is not so that every failure that is given happens. -/
theorem not_injects_all : ¬ ∀ past : List Nat,
    ((injected 1 (some 2) (some 1)).run (triggers past)).2.answer 0 =
      configured 1 (some 2) (some 1) 0 (past.count 0 + 1) := by
  intro h
  have hsecond := h [0]
  revert hsecond
  decide +kernel

end Drill
end Checkpointing

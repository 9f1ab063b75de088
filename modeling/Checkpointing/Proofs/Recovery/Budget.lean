import Mathlib.Tactic
import Checkpointing.Proofs.Recovery.Answers

/-!
# How often a plan fails

Only the plans that count calls say to fail of their own accord, and each of them does so once, when
it comes to its number.  The plans around them only keep them from being asked.

* `FailurePlan.leaves` are the plans that count calls, `FailurePlan.budget` those of them that have
  not come to their number; `spends_decide` is the step: whenever a plan says to fail, its budget
  gets smaller;
* `FailurePlan.onceFailures` counts how often a plan at a place that fails at most once said to
  fail, `onceFailures_answers` is the step;
* `failures_are_budgeted` is the main statement.
-/

namespace Checkpointing
namespace FailurePlan

/-! ### Plans that count calls -/

mutual

/-- The plans in a plan that count calls: the number on which each fails, and how. -/
def leaves : FailurePlan → List (Nat × FailureKind)
  | .never => []
  | .onCall number kind _ => [(number, kind)]
  | .anyOf plans => leavesOf plans
  | .once inner _ | .tracked _ _ inner => leaves inner

/-- The plans in several plans that count calls. -/
def leavesOf : List FailurePlan → List (Nat × FailureKind)
  | [] => []
  | plan :: plans => leaves plan ++ leavesOf plans

end

mutual

/-- How many of the plans in a plan that count calls have not come to their number. -/
def budget : FailurePlan → Nat
  | .never => 0
  | .onCall number _ calls => if calls < number then 1 else 0
  | .anyOf plans => budgetOf plans
  | .once inner _ | .tracked _ _ inner => budget inner

/-- How many of the plans in several plans that count calls have not come to their number. -/
def budgetOf : List FailurePlan → Nat
  | [] => 0
  | plan :: plans => budget plan + budgetOf plans

end

mutual

theorem budget_le : ∀ p : FailurePlan, p.budget ≤ p.leaves.length
  | .never => by simp [budget]
  | .onCall number kind calls => by
    rw [budget, leaves, List.length_singleton]
    split <;> omega
  | .anyOf plans => by
    rw [budget, leaves]
    exact budgetOf_le plans
  | .once inner _ => by
    rw [budget, leaves]
    exact budget_le inner
  | .tracked _ _ inner => by
    rw [budget, leaves]
    exact budget_le inner

theorem budgetOf_le : ∀ plans : List FailurePlan, budgetOf plans ≤ (leavesOf plans).length
  | [] => by simp [budgetOf]
  | plan :: plans => by
    rw [budgetOf, leavesOf, List.length_append]
    exact Nat.add_le_add (budget_le plan) (budgetOf_le plans)

end

/-- What a call does to the plans that count calls: they stay the same, one of them is behind a
decision to fail, and it is spent then. -/
structure Spends (all all' : List (Nat × FailureKind)) (left left' : Nat)
    (decision : Option FailureKind) : Prop where
  same : all' = all
  kind : ∀ kind, decision = some kind → ∃ number, (number, kind) ∈ all
  paid : decision.toList.length + left' ≤ left

theorem Spends.refl (all : List (Nat × FailureKind)) (left : Nat) : Spends all all left left none :=
  ⟨rfl, nofun, (Nat.zero_add left).le⟩

/-- What the first of several plans decides, the others not being asked. -/
theorem Spends.member {all all' rest rest' : List (Nat × FailureKind)} {left left' more more' : Nat}
    {decision : Option FailureKind} (h : Spends all all' left left' decision)
    (hrest : Spends rest rest' more more' none) :
    Spends (all ++ rest) (all' ++ rest') (left + more) (left' + more') decision := by
  refine ⟨by rw [h.same, hrest.same], fun kind hk => ?_, ?_⟩
  · obtain ⟨number, hmem⟩ := h.kind kind hk
    exact ⟨number, List.mem_append_left _ hmem⟩
  · have hpaid := h.paid
    have hmore := hrest.paid
    rw [Option.toList_none, List.length_nil, Nat.zero_add] at hmore
    omega

/-- What the others decide, the first of several plans not saying to fail. -/
theorem Spends.others {all all' rest rest' : List (Nat × FailureKind)} {left left' more more' : Nat}
    {decision : Option FailureKind} (h : Spends all all' left left' none)
    (hrest : Spends rest rest' more more' decision) :
    Spends (all ++ rest) (all' ++ rest') (left + more) (left' + more') decision := by
  refine ⟨by rw [h.same, hrest.same], fun kind hk => ?_, ?_⟩
  · obtain ⟨number, hmem⟩ := hrest.kind kind hk
    exact ⟨number, List.mem_append_right _ hmem⟩
  · have hpaid := h.paid
    have hmore := hrest.paid
    rw [Option.toList_none, List.length_nil, Nat.zero_add] at hpaid
    omega

/-- A call that does not come to the number leaves the number ahead only if it was ahead before.
The greatest count is left out: there the count stands still, and is come to again and again. -/
theorem spends_onCall {number calls : Nat} {kind : FailureKind} (h : number < Word.max32) :
    Spends [(number, kind)] [(number, kind)] (if calls < number then 1 else 0)
      (if nextCall calls < number then 1 else 0)
      (if nextCall calls = number then some kind else none) := by
  unfold nextCall
  refine ⟨rfl, fun k hk => ?_, ?_⟩
  · split at hk
    · cases hk
      exact ⟨number, List.mem_singleton_self _⟩
    · cases hk
  · split <;> simp only [Option.toList_some, Option.toList_none, List.length_singleton,
      List.length_nil] <;> split <;> split <;> omega

mutual

/-- Whenever a plan says to fail, one of the plans that count calls has come to its number. -/
theorem spends_decide (subtask : Nat) (ledger : FiringLedger) : ∀ p : FailurePlan,
    (∀ leaf ∈ p.leaves, leaf.1 < Word.max32) →
      Spends p.leaves (decide subtask ledger p).1.leaves p.budget
        (decide subtask ledger p).1.budget (decide subtask ledger p).2.2
  | .never, _ => by
    rw [decide_never]
    exact .refl _ _
  | .onCall number kind calls, h => by
    rw [leaves, List.forall_mem_singleton] at h
    rw [decide_onCall, leaves, leaves, budget, budget]
    exact spends_onCall h
  | .anyOf plans, h => by
    rw [leaves] at h
    rw [decide_anyOf, leaves, leaves, budget, budget]
    exact spends_decideFirst subtask ledger plans h
  | .once inner true, _ => by
    rw [decide_once_true]
    exact .refl _ _
  | .once inner false, h => by
    rw [leaves] at h
    rw [decide_once_false, leaves, leaves, budget, budget]
    exact spends_decide subtask ledger inner h
  | .tracked id tracker inner, h => by
    rw [leaves] at h
    by_cases hmem : ⟨tracker, id, subtask⟩ ∈ ledger
    · rw [decide_tracked_of_mem hmem]
      exact .refl _ _
    · rw [decide_tracked_of_not_mem hmem, leaves, leaves, budget, budget]
      exact spends_decide subtask ledger inner h

theorem spends_decideFirst (subtask : Nat) (ledger : FiringLedger) : ∀ plans : List FailurePlan,
    (∀ leaf ∈ leavesOf plans, leaf.1 < Word.max32) →
      Spends (leavesOf plans) (leavesOf (decideFirst subtask ledger plans).1) (budgetOf plans)
        (budgetOf (decideFirst subtask ledger plans).1) (decideFirst subtask ledger plans).2.2
  | [], _ => by
    rw [decideFirst_nil]
    exact .refl _ _
  | plan :: plans, h => by
    rw [leavesOf] at h
    obtain ⟨hplan, hplans⟩ := List.forall_mem_append.1 h
    have hfirst := spends_decide subtask ledger plan hplan
    rcases hdecide : decide subtask ledger plan with ⟨plan', ledger', decision⟩
    rw [hdecide] at hfirst
    cases decision with
    | some kind =>
      rw [decideFirst_cons_of_some hdecide, leavesOf, leavesOf, budgetOf, budgetOf]
      exact hfirst.member (Spends.refl _ _)
    | none =>
      rw [decideFirst_cons_of_none hdecide, leavesOf, leavesOf, budgetOf, budgetOf]
      exact hfirst.others (spends_decideFirst subtask ledger' plans hplans)

end

/-! ### Plans that fail at most once -/

/-- The plan fails at most once. -/
def isOnce : FailurePlan → Bool
  | .once .. => true
  | _ => false

/-- How often a plan at a place that fails at most once said to fail. -/
def onceFailures (place : List Nat) (log : List Answer) : Nat :=
  log.countP fun a => a.place == place && a.plan.isOnce && a.decision.isSome

/-- How often the plan may still say to fail if it fails at most once. -/
def allowance : Option FailurePlan → Nat
  | some (.once _ false) => 1
  | _ => 0

theorem allowance_le (p : Option FailurePlan) : allowance p ≤ 1 := by
  unfold allowance
  split <;> omega

theorem onceFailures_append (place : List Nat) (log log' : List Answer) :
    onceFailures place (log ++ log') = onceFailures place log + onceFailures place log' :=
  List.countP_append

/-- What is answered in a member is answered at the places that lead there. -/
theorem onceFailures_within (place : List Nat) (i j : Nat) (log : List Answer) :
    onceFailures (j :: place) (log.map (.within i)) =
      if i = j then onceFailures place log else 0 := by
  unfold onceFailures
  rw [List.countP_map]
  split
  · next hij =>
    refine List.countP_congr fun a _ => ?_
    simp [Answer.within, hij]
  · next hij =>
    refine List.countP_eq_zero.2 fun a _ => ?_
    simp [Answer.within, hij]

theorem onceFailures_nil_within (i : Nat) (log : List Answer) :
    onceFailures [] (log.map (.within i)) = 0 := by
  unfold onceFailures
  rw [List.countP_map]
  exact List.countP_eq_zero.2 fun a _ => by simp [Answer.within]

theorem onceFailures_answerOf (subtask : Nat) (ledger : FiringLedger) (p : FailurePlan)
    (i : Nat) (place : List Nat) : onceFailures (i :: place) [answerOf subtask ledger p] = 0 := by
  simp [onceFailures, answerOf]

/-- The members that are asked stand at their own places. -/
theorem onceFailures_answersFrom_eq_zero (subtask : Nat) (ledger : FiringLedger) (i : Nat)
    (plans : List FailurePlan) {place : List Nat} (hplace : ∀ j rest, place = j :: rest → j < i) :
    onceFailures place (answersFrom subtask ledger i plans) = 0 := by
  induction plans generalizing i ledger with
  | nil => rfl
  | cons plan plans ih =>
    have hhead : onceFailures place ((answers subtask ledger plan).map (.within i)) = 0 := by
      cases place with
      | nil => exact onceFailures_nil_within i _
      | cons j rest => rw [onceFailures_within, if_neg (hplace j rest rfl).ne']
    rw [answersFrom, onceFailures_append, hhead, Nat.zero_add]
    split
    · rfl
    · exact ih _ _ fun j rest heq => Nat.lt_succ_of_lt (hplace j rest heq)

mutual

/-- Whenever a plan that fails at most once says to fail, it has not done so before, and never does
so again. -/
theorem onceFailures_answers (subtask : Nat) (ledger : FiringLedger) :
    ∀ (p : FailurePlan) (place : List Nat),
      onceFailures place (answers subtask ledger p) +
        allowance ((decide subtask ledger p).1.at? place) ≤ allowance (p.at? place)
  | .never, place => by
    rw [decide_never]
    cases place <;> simp [answers, answerOf, onceFailures, isOnce]
  | .onCall number kind calls, place => by
    rw [decide_onCall]
    cases place <;> simp [answers, answerOf, onceFailures, isOnce, allowance, at?, members]
  | .anyOf plans, [] => by
    rw [decide_anyOf, answers, onceFailures_append,
      onceFailures_answersFrom_eq_zero _ _ _ _ (by simp)]
    simp [answerOf, onceFailures, isOnce, allowance, at?]
  | .anyOf plans, i :: place => by
    have hmembers := onceFailures_answersFrom subtask ledger 0 plans i place
    rw [Nat.zero_add] at hmembers
    rw [decide_anyOf, answers, onceFailures_append, onceFailures_answerOf, Nat.add_zero]
    exact hmembers
  | .once inner true, place => by
    rw [decide_once_true, answers]
    cases place <;> simp [answerOf, onceFailures, decide_once_true]
  | .once inner false, [] => by
    rw [decide_once_false, answers, onceFailures_append, if_neg Bool.false_ne_true,
      onceFailures_nil_within]
    cases hdecision : (decide subtask ledger inner).2.2 <;>
      simp [answerOf, onceFailures, isOnce, allowance, at?, decide_once_false, hdecision]
  | .once inner false, i :: place => by
    have hinner := onceFailures_answers subtask ledger inner place
    rw [decide_once_false, answers, onceFailures_append, onceFailures_answerOf, Nat.add_zero,
      if_neg Bool.false_ne_true, onceFailures_within]
    cases i with
    | zero => exact hinner
    | succ i => exact (Nat.zero_add _).le
  | .tracked id tracker inner, place => by
    by_cases hmem : ⟨tracker, id, subtask⟩ ∈ ledger
    · rw [decide_tracked_of_mem hmem, answers, if_pos hmem]
      cases place <;> simp [answerOf, onceFailures, isOnce]
    · have hinner := onceFailures_answers subtask ledger inner
      rw [decide_tracked_of_not_mem hmem, answers, if_neg hmem, onceFailures_append]
      match place with
      | [] =>
        rw [onceFailures_nil_within]
        simp [answerOf, onceFailures, isOnce, allowance, at?]
      | 0 :: place =>
        rw [onceFailures_within, onceFailures_answerOf]
        exact hinner place
      | (i + 1) :: place =>
        rw [onceFailures_within, onceFailures_answerOf]
        exact (Nat.zero_add _).le

theorem onceFailures_answersFrom (subtask : Nat) (ledger : FiringLedger) (i : Nat) :
    ∀ (plans : List FailurePlan) (j : Nat) (place : List Nat),
      onceFailures ((i + j) :: place) (answersFrom subtask ledger i plans) +
        allowance ((decideFirst subtask ledger plans).1[j]?.bind (·.at? place)) ≤
          allowance (plans[j]?.bind (·.at? place))
  | [], j, place => by
    rw [decideFirst_nil, answersFrom]
    exact (Nat.zero_add _).le
  | plan :: plans, j, place => by
    have hfirst := onceFailures_answers subtask ledger plan place
    rcases hdecide : decide subtask ledger plan with ⟨plan', ledger', decision⟩
    rw [hdecide] at hfirst
    cases decision with
    | some kind =>
      rw [decideFirst_cons_of_some hdecide, answersFrom_cons_of_some hdecide, onceFailures_within]
      cases j with
      | zero =>
        rw [if_pos (Nat.add_zero i).symm]
        exact hfirst
      | succ j =>
        rw [if_neg (by omega)]
        exact (Nat.zero_add _).le
    | none =>
      rw [decideFirst_cons_of_none hdecide, answersFrom_cons_of_none hdecide,
        onceFailures_append, onceFailures_within]
      cases j with
      | zero =>
        rw [if_pos (Nat.add_zero i).symm, onceFailures_answersFrom_eq_zero]
        · exact hfirst
        · rintro j rest ⟨⟩
          exact Nat.lt_succ_self _
      | succ j =>
        have hothers := onceFailures_answersFrom subtask ledger' (i + 1) plans j place
        have hplace : i + (j + 1) = i + 1 + j := by omega
        rw [if_neg (by omega), Nat.zero_add, hplace]
        exact hothers

end

/-! ### Many calls -/

variable {p : FailurePlan} {ledger : FiringLedger} {calls : List Call}

/-- A plan says to fail no more often than plans in it have not come to their number. -/
theorem countP_decisions_le (h : ∀ leaf ∈ p.leaves, leaf.1 < Word.max32) :
    (p.decisions ledger calls).countP Option.isSome ≤ p.budget := by
  induction calls generalizing p ledger with
  | nil => exact Nat.zero_le _
  | cons call calls ih =>
    have hspends := spends_decide call.subtask (call.meanwhile ledger) p h
    rw [← hspends.same] at h
    have hrest : ((decide call.subtask (call.meanwhile ledger) p).1.decisions
        (decide call.subtask (call.meanwhile ledger) p).2.1 calls).countP Option.isSome ≤
          (decide call.subtask (call.meanwhile ledger) p).1.budget := ih h
    have hpaid := hspends.paid
    rw [decisions_cons, List.countP_cons]
    cases hdecision : (decide call.subtask (call.meanwhile ledger) p).2.2 <;>
      simp [hdecision] at hpaid ⊢ <;> omega

theorem kind_mem_leaves (h : ∀ leaf ∈ p.leaves, leaf.1 < Word.max32) {kind : FailureKind}
    (hkind : some kind ∈ p.decisions ledger calls) : ∃ number, (number, kind) ∈ p.leaves := by
  induction calls generalizing p ledger with
  | nil => cases hkind
  | cons call calls ih =>
    have hspends := spends_decide call.subtask (call.meanwhile ledger) p h
    rw [decisions_cons, List.mem_cons] at hkind
    rcases hkind with hnow | hlater
    · exact hspends.kind kind hnow.symm
    · rw [← hspends.same] at h ⊢
      exact ih h hlater

theorem onceFailures_log_le (p : FailurePlan) (ledger : FiringLedger) (calls : List Call)
    (place : List Nat) : onceFailures place (p.log ledger calls) ≤ allowance (p.at? place) := by
  induction calls generalizing p ledger with
  | nil => exact Nat.zero_le _
  | cons call calls ih =>
    have hnow := onceFailures_answers call.subtask (call.meanwhile ledger) p place
    rw [log_cons, onceFailures_append]
    exact (Nat.add_le_add_left (ih _ _) _).trans hnow

/-- A plan has a finite budget of failures.  Let a plan be called any number of times, for whatever
subtasks, with any ledger at first and whatever others note in it between the calls, and let no plan
in it fail on the call of the greatest number, which is come to again and again.  Then it says to
fail at most as often as there are plans in it that count calls, always in the way of one of them;
and a plan in it that fails at most once does so at most once on all these calls, wherever it
stands. -/
theorem failures_are_budgeted (h : ∀ leaf ∈ p.leaves, leaf.1 < Word.max32) (ledger : FiringLedger)
    (calls : List Call) :
    (p.decisions ledger calls).countP Option.isSome ≤ p.leaves.length ∧
    (∀ kind, some kind ∈ p.decisions ledger calls → ∃ number, (number, kind) ∈ p.leaves) ∧
    ∀ place, onceFailures place (p.log ledger calls) ≤ 1 :=
  ⟨(countP_decisions_le h).trans (budget_le p), fun _ => kind_mem_leaves h,
    fun place => (onceFailures_log_le p ledger calls place).trans (allowance_le _)⟩

/-- Two plans that note their firings in one ledger, the second around one that fails at most once
and has made a call already. -/
def nestedPlan : FailurePlan :=
  .anyOf [.tracked 1 0 (.onCall 2 .declineCheckpoint 0),
    .tracked 2 0 (.once (.anyOf [.onCall 2 .userException 1, .onCall 4 .executorLoss 0]) false)]

/-- The first two plans that count calls come to their numbers, on the first and on the second call;
the third one does not, since the plan around it has failed already. -/
theorem failures_are_budgeted_of_nested :
    nestedPlan.decisions ∅ (List.replicate 6 ⟨3, id⟩) =
      [some .userException, some .declineCheckpoint, none, none, none, none] ∧
    (nestedPlan.decisions ∅ (List.replicate 6 ⟨3, id⟩)).countP Option.isSome ≤
      nestedPlan.leaves.length ∧
    nestedPlan.leaves.length = 3 ∧
    onceFailures [1, 0] (nestedPlan.log ∅ (List.replicate 6 ⟨3, id⟩)) ≤ 1 := by
  have hleaves : ∀ leaf ∈ nestedPlan.leaves, leaf.1 < Word.max32 := by decide
  obtain ⟨hcount, -, honce⟩ :=
    failures_are_budgeted hleaves ∅ (List.replicate 6 ⟨3, id⟩)
  exact ⟨by decide +kernel, hcount, rfl, honce [1, 0]⟩

end FailurePlan
end Checkpointing

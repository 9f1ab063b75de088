import Checkpointing.Recovery.FailurePlan

/-!
# What plans answer

A plan that is asked asks the plans in it, as far as it needs to, and each of them answers.  The
answers of one call are told apart by the places at which the plans stand.

* `FailurePlan.Answer` is the answer of one plan, `FailurePlan.answers` are those of a call;
* `FailurePlan.at?` finds the plan at a place, `FailurePlan.renewAt` gives a plan another inner one;
* `FailurePlan.decisions` and `FailurePlan.log` are what a plan answers when it is called again and
  again, with a ledger that others write in too.
-/

namespace Checkpointing
namespace FailurePlan

variable {subtask : Nat} {ledger : FiringLedger}

/-! ### One call -/

theorem decide_never : decide subtask ledger .never = (.never, ledger, none) := by rw [decide]

theorem decide_onCall (number : Nat) (kind : FailureKind) (calls : Nat) :
    decide subtask ledger (.onCall number kind calls) =
      (.onCall number kind (nextCall calls), ledger,
        if nextCall calls = number then some kind else none) := by
  rw [decide]

theorem decide_anyOf (plans : List FailurePlan) : decide subtask ledger (.anyOf plans) =
    (.anyOf (decideFirst subtask ledger plans).1, (decideFirst subtask ledger plans).2) := by
  rw [decide]

/-- A plan that has failed once is not asked again. -/
theorem decide_once_true (inner : FailurePlan) :
    decide subtask ledger (.once inner true) = (.once inner true, ledger, none) := by
  rw [decide, if_pos rfl]

theorem decide_once_false (inner : FailurePlan) : decide subtask ledger (.once inner false) =
    (.once (decide subtask ledger inner).1 (decide subtask ledger inner).2.2.isSome,
      (decide subtask ledger inner).2) := by
  rw [decide, if_neg Bool.false_ne_true]

/-- A plan is not asked if the ledger knows that it fired for the subtask. -/
theorem decide_tracked_of_mem {id tracker : Nat} (h : ⟨tracker, id, subtask⟩ ∈ ledger)
    (inner : FailurePlan) : decide subtask ledger (.tracked id tracker inner) =
      (.tracked id tracker inner, ledger, none) := by
  rw [decide, if_pos h]

theorem decide_tracked_of_not_mem {id tracker : Nat} (h : ⟨tracker, id, subtask⟩ ∉ ledger)
    (inner : FailurePlan) : decide subtask ledger (.tracked id tracker inner) =
      (.tracked id tracker (decide subtask ledger inner).1,
        if (decide subtask ledger inner).2.2.isSome then
          (decide subtask ledger inner).2.1.note ⟨tracker, id, subtask⟩
        else (decide subtask ledger inner).2.1,
        (decide subtask ledger inner).2.2) := by
  rw [decide, if_neg h]

theorem decideFirst_nil : decideFirst subtask ledger [] = ([], ledger, none) := by
  rw [decideFirst]

/-- After one that says to fail the others are not asked. -/
theorem decideFirst_cons_of_some {p p' : FailurePlan} {ledger' : FiringLedger} {kind : FailureKind}
    (h : decide subtask ledger p = (p', ledger', some kind)) (plans : List FailurePlan) :
    decideFirst subtask ledger (p :: plans) = (p' :: plans, ledger', some kind) := by
  rw [decideFirst, h]

theorem decideFirst_cons_of_none {p p' : FailurePlan} {ledger' : FiringLedger}
    (h : decide subtask ledger p = (p', ledger', none)) (plans : List FailurePlan) :
    decideFirst subtask ledger (p :: plans) =
      (p' :: (decideFirst subtask ledger' plans).1, (decideFirst subtask ledger' plans).2) := by
  rw [decideFirst, h]

/-! ### Answers -/

/-- What a plan answered that was asked. -/
structure Answer where
  /-- Where the plan stands in the one that was called: the numbers of the members on the way. -/
  place : List Nat
  /-- The plan as it was when it was asked. -/
  plan : FailurePlan
  decision : Option FailureKind
deriving Repr

/-- The answer as it is seen from a plan of which the place is in member `i`. -/
def Answer.within (i : Nat) (a : Answer) : Answer := { a with place := i :: a.place }

/-- The answer of the plan that is called. -/
def answerOf (subtask : Nat) (ledger : FiringLedger) (p : FailurePlan) : Answer :=
  ⟨[], p, (decide subtask ledger p).2.2⟩

mutual

/-- The answers of all plans that are asked in a call, in the order in which they are given: a plan
answers after those that it asks. -/
def answers (subtask : Nat) (ledger : FiringLedger) : FailurePlan → List Answer
  | .never => [answerOf subtask ledger .never]
  | .onCall number kind calls => [answerOf subtask ledger (.onCall number kind calls)]
  | .anyOf plans =>
    answersFrom subtask ledger 0 plans ++ [answerOf subtask ledger (.anyOf plans)]
  | .once inner fired =>
    (if fired then [] else (answers subtask ledger inner).map (.within 0)) ++
      [answerOf subtask ledger (.once inner fired)]
  | .tracked id tracker inner =>
    (if ⟨tracker, id, subtask⟩ ∈ ledger then []
      else (answers subtask ledger inner).map (.within 0)) ++
      [answerOf subtask ledger (.tracked id tracker inner)]

/-- The answers of members from the `i`th on; those after one that says to fail are not asked. -/
def answersFrom (subtask : Nat) (ledger : FiringLedger) (i : Nat) : List FailurePlan → List Answer
  | [] => []
  | plan :: plans =>
    (answers subtask ledger plan).map (.within i) ++
      match decide subtask ledger plan with
      | (_, _, some _) => []
      | (_, ledger, none) => answersFrom subtask ledger (i + 1) plans

end

theorem answersFrom_cons_of_some {p p' : FailurePlan} {ledger' : FiringLedger} {kind : FailureKind}
    (h : decide subtask ledger p = (p', ledger', some kind)) (i : Nat) (plans : List FailurePlan) :
    answersFrom subtask ledger i (p :: plans) = (answers subtask ledger p).map (.within i) := by
  rw [answersFrom, h, List.append_nil]

theorem answersFrom_cons_of_none {p p' : FailurePlan} {ledger' : FiringLedger}
    (h : decide subtask ledger p = (p', ledger', none)) (i : Nat) (plans : List FailurePlan) :
    answersFrom subtask ledger i (p :: plans) =
      (answers subtask ledger p).map (.within i) ++ answersFrom subtask ledger' (i + 1) plans := by
  rw [answersFrom, h]

/-! ### Places -/

/-- The plans that a plan is made of. -/
def members : FailurePlan → List FailurePlan
  | .never | .onCall .. => []
  | .anyOf plans => plans
  | .once inner _ | .tracked _ _ inner => [inner]

/-- The plan at a place. -/
def at? (p : FailurePlan) : List Nat → Option FailurePlan
  | [] => some p
  | i :: place => p.members[i]?.bind fun q => q.at? place

/-- The same plan, but with another inner one in the plan at a place. -/
def renewAt (inner : FailurePlan) : List Nat → FailurePlan → FailurePlan
  | [], p => p.withInner inner
  | i :: place, .anyOf plans => .anyOf (plans.modify i (renewAt inner place))
  | 0 :: place, .once p fired => .once (renewAt inner place p) fired
  | 0 :: place, .tracked id tracker p => .tracked id tracker (renewAt inner place p)
  | _ :: _, p => p

/-! ### Many calls -/

/-- A call of a plan: the subtask it is made for, and what becomes of the ledger between the call
before and this one, since other plans may note their firings in it too. -/
structure Call where
  subtask : Nat
  meanwhile : FiringLedger → FiringLedger

/-- What a plan decides on each of many calls. -/
def decisions (p : FailurePlan) (ledger : FiringLedger) : List Call → List (Option FailureKind)
  | [] => []
  | call :: rest =>
    let (p, ledger, decision) := decide call.subtask (call.meanwhile ledger) p
    decision :: p.decisions ledger rest

/-- All answers that are given on many calls. -/
def log (p : FailurePlan) (ledger : FiringLedger) : List Call → List Answer
  | [] => []
  | call :: rest =>
    answers call.subtask (call.meanwhile ledger) p ++
      let (p, ledger, _) := decide call.subtask (call.meanwhile ledger) p
      p.log ledger rest

theorem decisions_cons (p : FailurePlan) (ledger : FiringLedger) (call : Call) (rest : List Call) :
    p.decisions ledger (call :: rest) =
      (decide call.subtask (call.meanwhile ledger) p).2.2 ::
        (decide call.subtask (call.meanwhile ledger) p).1.decisions
          (decide call.subtask (call.meanwhile ledger) p).2.1 rest := rfl

theorem log_cons (p : FailurePlan) (ledger : FiringLedger) (call : Call) (rest : List Call) :
    p.log ledger (call :: rest) = answers call.subtask (call.meanwhile ledger) p ++
      (decide call.subtask (call.meanwhile ledger) p).1.log
        (decide call.subtask (call.meanwhile ledger) p).2.1 rest := rfl

end FailurePlan
end Checkpointing

import Mathlib.Tactic
import Checkpointing.Proofs.Recovery.Budget

/-!
# On which calls a plan fails that counts them

A plan that counts its calls fails on the call of its number and on no other, unless its number is
the greatest one: the count stands still there, and every later call has that number too.

* `nextCall_min` is the step: the count of calls made, cut off at the greatest one;
* `decisions_onCall` is the induction over the calls;
* `fails_on_its_call` is the main statement.
-/

namespace Checkpointing
namespace FailurePlan

variable {number : Nat}

/-- The count of one more call than have been made. -/
theorem nextCall_min (made : Nat) :
    nextCall (min made Word.max32) = min (made + 1) Word.max32 := by
  unfold nextCall
  omega

/-- The count comes to a number on the call of that number, and stands still at the greatest one. -/
theorem min_eq_iff (h : number ≤ Word.max32) (call : Nat) :
    min call Word.max32 = number ↔ call = number ∨ (number = Word.max32 ∧ number < call) := by
  omega

/-- What is decided on the calls after those that have been made, which were `made`. -/
theorem decisions_onCall (h : number ≤ Word.max32) (kind : FailureKind) (made : Nat)
    (ledger : FiringLedger) (calls : List Call) :
    (onCall number kind (min made Word.max32)).decisions ledger calls =
      (List.range' (made + 1) calls.length).map fun call =>
        if call = number ∨ (number = Word.max32 ∧ number < call) then some kind else none := by
  induction calls generalizing made ledger with
  | nil => rfl
  | cons call calls ih =>
    rw [decisions_cons, decide_onCall, nextCall_min, List.length_cons, List.range'_succ,
      List.map_cons]
    refine congrArg₂ List.cons ?_ (ih (made + 1) _)
    exact if_congr (min_eq_iff h (made + 1)) rfl rfl

/-- A plan that counts calls and has been called any number of times fails, on whatever calls come
then, exactly on the one of its number, and so at most once.  Only if its number is the greatest one
it fails on that call and on every later one. -/
theorem fails_on_its_call (h : number ≤ Word.max32) (kind : FailureKind) (made : Nat)
    (ledger : FiringLedger) (calls : List Call) :
    (onCall number kind (min made Word.max32)).decisions ledger calls =
      ((List.range' (made + 1) calls.length).map fun call =>
        if call = number ∨ (number = Word.max32 ∧ number < call) then some kind else none) ∧
    (number < Word.max32 →
      (onCall number kind (min made Word.max32)).decisions ledger calls =
        ((List.range' (made + 1) calls.length).map fun call =>
          if call = number then some kind else none) ∧
      ((onCall number kind (min made Word.max32)).decisions ledger calls).countP Option.isSome ≤
        1) := by
  have hdecisions := decisions_onCall h kind made ledger calls
  refine ⟨hdecisions, fun hlt => ⟨hdecisions.trans ?_, ?_⟩⟩
  · refine List.map_congr_left fun call _ => if_congr ?_ rfl rfl
    exact or_iff_left fun hgreatest => hlt.ne hgreatest.1
  · have hleaves : ∀ leaf ∈ (onCall number kind (min made Word.max32)).leaves,
        leaf.1 < Word.max32 := by
      rw [leaves, List.forall_mem_singleton]
      exact hlt
    exact (countP_decisions_le hleaves).trans (budget_le _)

/-- A plan for the third call that has been called once. -/
theorem fails_on_its_call_of_third :
    3 ≤ Word.max32 ∧
    (onCall 3 .userException 1).decisions ∅ (List.replicate 4 ⟨0, id⟩) =
      [none, some .userException, none, none] ∧
    ((onCall 3 .userException 1).decisions ∅ (List.replicate 4 ⟨0, id⟩)).countP Option.isSome ≤
      1 := by
  have hthird : 3 ≤ Word.max32 := by decide
  obtain ⟨-, hbelow⟩ :=
    fails_on_its_call hthird .userException 1 ∅ (List.replicate 4 ⟨0, id⟩)
  obtain ⟨hdecisions, hcount⟩ := hbelow (by decide)
  exact ⟨hthird, hdecisions, hcount⟩

/-- It is not so that every plan that counts calls fails on the call of its number alone. -/
theorem not_fails_on_its_call_alone : ¬ ∀ (number made : Nat) (kind : FailureKind)
    (calls : List Call), 1 ≤ number → number ≤ Word.max32 →
      (onCall number kind (min made Word.max32)).decisions ∅ calls =
        (List.range' (made + 1) calls.length).map fun call =>
          if call = number then some kind else none := by
  intro h
  -- The second of two calls comes after the one of the greatest number.
  have htwo := h Word.max32 (Word.max32 - 1) .userException (List.replicate 2 ⟨0, id⟩)
    (by decide) le_rfl
  revert htwo
  decide +kernel

end FailurePlan
end Checkpointing

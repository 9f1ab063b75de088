/-!
# Machine words

Ids, counters and timestamps are plain integers in this library.  This module states the ranges of
the words that hold them, and the few operations in which a range shows: counting one further,
taking the difference of two timestamps, and reading a count as a signed word.

## Main definitions

* `Overflow` names the operation that left its word.
* `Word.next?` and `Word.difference?` are the checked operations.
* `Word.toSigned` reads the low 64 bits of a count as a signed word.
-/

namespace Checkpointing

/-- The operation whose result does not fit its word. -/
inductive Overflow where
  | add
  | subtract
deriving Repr, DecidableEq

namespace Word

/-- The greatest 32-bit count, one less than the 32nd power of two. -/
def max32 : Nat := 4294967295

/-- The greatest 64-bit count, one less than the 64th power of two. -/
def max64 : Nat := 18446744073709551615

/-- The least signed 64-bit integer. -/
def minSigned : Int := -9223372036854775808

/-- The greatest signed 64-bit integer. -/
def maxSigned : Int := 9223372036854775807

/-- How many 64-bit words there are. -/
def size64 : Nat := 18446744073709551616

/-- An integer is representable as a signed 64-bit word. -/
def IsSigned (i : Int) : Prop := minSigned ≤ i ∧ i ≤ maxSigned

instance (i : Int) : Decidable (IsSigned i) := inferInstanceAs (Decidable (_ ∧ _))

/-- The count after `n` in a word that holds at most `limit`. -/
def next? (limit n : Nat) : Except Overflow Nat :=
  if n < limit then .ok (n + 1) else .error .add

/-- The difference of two timestamps, which has to be a timestamp again. -/
def difference? (later earlier : Int) : Except Overflow Int :=
  if IsSigned (later - earlier) then .ok (later - earlier) else .error .subtract

/-- The low 64 bits of a count, read as a signed word. -/
def toSigned (n : Nat) : Int := Int.bmod n size64

theorem next?_eq_ok_iff {limit n m : Nat} : next? limit n = .ok m ↔ n < limit ∧ m = n + 1 := by
  unfold next?
  split
  · simp_all [eq_comm]
  · simp; omega

theorem difference?_eq_ok_iff {later earlier d : Int} :
    difference? later earlier = .ok d ↔ IsSigned (later - earlier) ∧ d = later - earlier := by
  unfold difference?
  split
  · simp_all [eq_comm]
  · simp_all

/-- A count that fits a signed word is read as itself. -/
theorem toSigned_of_le {n : Nat} (h : (n : Int) ≤ maxSigned) : toSigned n = n := by
  have h' : (n : Int) ≤ 9223372036854775807 := h
  exact Int.bmod_eq_of_le (by simp only [size64]; omega) (by simp only [size64]; omega)

/-- Whatever is read as a signed word is one. -/
theorem isSigned_toSigned (n : Nat) : IsSigned (toSigned n) := by
  have hle : -((size64 : Int) / 2) ≤ Int.bmod n size64 := Int.le_bmod (by decide)
  have hlt : Int.bmod n size64 < ((size64 : Int) + 1) / 2 := Int.bmod_lt (by decide)
  unfold IsSigned toSigned minSigned maxSigned
  simp only [size64] at hle hlt ⊢
  omega

end Word

end Checkpointing

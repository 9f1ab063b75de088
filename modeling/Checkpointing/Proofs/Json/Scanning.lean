import Checkpointing.Json.Forms
import Mathlib.Tactic.IntervalCases

/-!
# Scanning what was written

The texts and counts that JSON values are written with are scanned back to what they were written
from, whatever follows them: a text ends at its closing quote, a count at the first character that
cannot go on with a number.

## Main results

* `Reader.textBody_flatMap_escaped` scans a text up to its quote.
* `Reader.number_toDigits` scans a count that a word holds.
-/

namespace Checkpointing

namespace Reader

/-! ### Blanks -/

theorem skipBlanks_append {gap : List Char} (h : ∀ c ∈ gap, isBlank c) (cs : List Char) :
    skipBlanks (gap ++ cs) = skipBlanks cs :=
  List.dropWhile_append_of_pos h

theorem skipBlanks_cons {c : Char} (h : isBlank c = false) (cs : List Char) :
    skipBlanks (c :: cs) = c :: cs := by
  simp [skipBlanks, h]

/-! ### Texts -/

theorem hexNumber?_hexDigit {n : Nat} (h : n < 32) :
    hexNumber? '0' '0' (Json.hexDigit (n / 16)) (Json.hexDigit (n % 16)) = some n := by
  interval_cases n <;> rfl

/-- A character below the blank is scanned from the number of its code point. -/
theorem textBody_control {c : Char} (h : c.toNat < 32) (cs : List Char) :
    textBody true ('\\' :: 'u' :: '0' :: '0' :: Json.hexDigit (c.toNat / 16) ::
      Json.hexDigit (c.toNat % 16) :: cs) = cons c (textBody true cs) := by
  have hleading : isLeading c.toNat = false := by simp [isLeading]; omega
  have htrailing : isTrailing c.toNat = false := by simp [isTrailing]; omega
  rw [textBody, hexNumber?_hexDigit h]
  simp [hleading, htrailing]

/-- A written character is scanned as itself. -/
theorem textBody_escaped (c : Char) (cs : List Char) :
    textBody true (Json.escaped c ++ cs) = cons c (textBody true cs) := by
  unfold Json.escaped
  split_ifs with hquote hslash hnewline hreturn htab hback hfeed hcontrol
  · subst hquote; simp [textBody, escape?]
  · subst hslash; simp [textBody, escape?]
  · subst hnewline; simp [textBody, escape?]
  · subst hreturn; simp [textBody, escape?]
  · subst htab; simp [textBody, escape?]
  · subst hback; simp [textBody, escape?]
  · subst hfeed; simp [textBody, escape?]
  · exact textBody_control hcontrol cs
  · rw [List.singleton_append, textBody, if_neg hcontrol] <;> simp_all

/-- A written text is scanned up to its closing quote. -/
theorem textBody_flatMap_escaped (s rest : List Char) :
    textBody true (s.flatMap Json.escaped ++ '"' :: rest) = .ok (s, rest) := by
  induction s with
  | nil => simp [textBody]
  | cons c s ih => rw [List.flatMap_cons, List.append_assoc, textBody_escaped, ih, cons]

/-! ### Counts -/

/-- What may stand behind a number without going on with it. -/
def EndsNumber (rest : List Char) : Prop :=
  ∀ c ∈ rest.head?, c.isDigit = false ∧ c ≠ '.' ∧ c ≠ 'e' ∧ c ≠ 'E'

theorem endsNumber_nil : EndsNumber [] := by simp [EndsNumber]

theorem EndsNumber.takeWhile {rest : List Char} (h : EndsNumber rest) :
    rest.takeWhile Char.isDigit = [] := by
  cases rest with
  | nil => rfl
  | cons c cs => simp [(h c rfl).1]

theorem EndsNumber.dropWhile {rest : List Char} (h : EndsNumber rest) :
    rest.dropWhile Char.isDigit = rest := by
  cases rest with
  | nil => rfl
  | cons c cs => simp [(h c rfl).1]

theorem EndsNumber.fractionDigits {rest : List Char} (h : EndsNumber rest) (atEnd : ReadFault) :
    fractionDigits atEnd rest = .ok ([], rest) := by
  unfold Reader.fractionDigits
  split
  · exact absurd rfl (h _ rfl).2.1
  · rfl

theorem EndsNumber.exponentDigits {rest : List Char} (h : EndsNumber rest) (atEnd : ReadFault) :
    exponentDigits atEnd rest = .ok (none, rest) := by
  unfold Reader.exponentDigits
  split
  · rw [if_neg]
    simpa using (h _ rfl).2.2
  · rfl

theorem digits_append {ds rest : List Char} (hds : ds ≠ []) (hall : ∀ c ∈ ds, c.isDigit)
    (h : EndsNumber rest) (atEnd : ReadFault) : digits atEnd (ds ++ rest) = .ok (ds, rest) := by
  obtain ⟨d, ds, rfl⟩ := List.exists_cons_of_ne_nil hds
  have htail : ∀ c ∈ ds, c.isDigit := fun c hc => hall c (List.mem_cons_of_mem d hc)
  rw [List.cons_append, digits, if_pos (hall d List.mem_cons_self),
    List.takeWhile_append_of_pos htail, List.dropWhile_append_of_pos htail, h.takeWhile,
    h.dropWhile, List.append_nil]

theorem isDigit_of_mem_toDigits {n : Nat} {c : Char} (h : c ∈ Nat.toDigits 10 n) : c.isDigit :=
  Nat.isDigit_of_mem_toDigits (by decide) le_rfl h

theorem toDigits_eq_cons (n : Nat) : ∃ d ds, Nat.toDigits 10 n = d :: ds ∧ d.isDigit := by
  obtain ⟨d, ds, h⟩ := List.exists_cons_of_ne_nil (Nat.toDigits_ne_nil (n := n) (b := 10))
  exact ⟨d, ds, h, isDigit_of_mem_toDigits (h ▸ List.mem_cons_self)⟩

/-- The digits of a positive count do not start with a zero. -/
theorem head?_toDigits_ne {n : Nat} (h : 0 < n) : (Nat.toDigits 10 n).head? ≠ some '0' := by
  induction n using Nat.strongRecOn with
  | ind n ih =>
    rcases lt_or_ge n 10 with hlt | hge
    · rw [Nat.toDigits_of_lt_base hlt]
      interval_cases n <;> decide
    · obtain ⟨d, ds, hds, -⟩ := toDigits_eq_cons (n / 10)
      have hd := ih (n / 10) (by omega) (by omega)
      rw [Nat.toDigits_of_base_le (by decide) hge, hds]
      rwa [hds] at hd

/-- The digits of a count are the whole part of the number. -/
theorem wholeDigits_toDigits (n : Nat) {rest : List Char} (h : EndsNumber rest)
    (atEnd : ReadFault) :
    wholeDigits atEnd (Nat.toDigits 10 n ++ rest) = .ok (Nat.toDigits 10 n, rest) := by
  unfold wholeDigits
  split
  case h_1 c cs heq =>
    -- The number starts with a zero, so it is zero: what follows is no digit.
    have hzero : n = 0 := by
      by_contra hne
      obtain ⟨d, ds, hds, -⟩ := toDigits_eq_cons n
      have hd := head?_toDigits_ne (Nat.pos_of_ne_zero hne)
      rw [hds] at hd heq
      exact hd (congrArg some (List.cons.inj heq).1)
    subst hzero
    obtain rfl : rest = c :: cs := by simpa using heq
    rw [(h c rfl).1]
    rfl
  case h_2 => exact digits_append Nat.toDigits_ne_nil (fun _ => isDigit_of_mem_toDigits) h atEnd

theorem digitsValue_toDigits (n : Nat) : digitsValue (Nat.toDigits 10 n) = n :=
  Nat.ofDigitChars_ten_toDigits

/-- A count is written with digits alone. -/
theorem numberText_toDigits (n : Nat) {rest : List Char} (h : EndsNumber rest)
    (atEnd : ReadFault) :
    numberText atEnd (Nat.toDigits 10 n ++ rest) =
      .ok (⟨false, Nat.toDigits 10 n, [], none, false⟩, rest) := by
  obtain ⟨d, ds, hds, hd⟩ := toDigits_eq_cons n
  have hsign : d ≠ '-' := by rintro rfl; simp at hd
  unfold numberText
  split
  rename_i negative cs heq
  split at heq
  · simp_all
  · cases heq
    rw [wholeDigits_toDigits n h]
    simp [Except.bind, Except.map, h.fractionDigits, h.exponentDigits]

/-- A count that a word holds is scanned as itself. -/
theorem number_toDigits {n : Nat} (hn : n ≤ Word.max64) {rest : List Char} (h : EndsNumber rest) :
    number (Nat.toDigits 10 n ++ rest) = .ok (.whole n, rest) := by
  have hfits : ¬ Word.max64 < n := by omega
  simp [number, numberText_toDigits n h, NumberText.value, digitsValue_toDigits, hfits,
    Except.bind, Except.map]

end Reader

end Checkpointing

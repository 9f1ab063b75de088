/-!
# Written counts

Counts in decimal digits, with or without a plus sign.  Zeros in front do not matter.
-/

namespace Checkpointing

namespace Decimal

/-- The count that digits alone make, if there are any. -/
def ofDigits? (digits : List Char) : Option Nat :=
  if digits.isEmpty || !digits.all Char.isDigit then none
  else some (Nat.ofDigitChars 10 digits 0)

/-- The count up to `greatest` that a text writes. -/
def count? (greatest : Nat) (text : List Char) : Option Nat :=
  let digits := match text with
    | '+' :: rest => rest
    | _ => text
  (ofDigits? digits).filter fun n => n ≤ greatest

/-- The count up to `greatest` that a text writes as an integer, so zero may have a minus sign. -/
def unsignedInteger? (greatest : Nat) (text : List Char) : Option Nat :=
  match text with
  | '-' :: digits => (ofDigits? digits).filter fun n => n = 0
  | _ => count? greatest text

end Decimal

end Checkpointing

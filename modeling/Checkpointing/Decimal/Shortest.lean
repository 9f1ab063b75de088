/-!
# Shortest decimals

A floating-point number is written with the fewest digits that read back as the same number.  The
number is `mantissa · 2 ^ exponent`; the reals that round to it form an interval around it.  Of the
decimal grids, from coarse to fine, the first with a point in that interval gives the digits.

## Main definitions

* `Dyadic` is a positive number given by mantissa and exponent, `Dyadic.ofFloat?` decodes a float.
* `Dyadic.shortest?` finds the digits and the power of ten they count.
* `Decimal.render` writes them, positionally for numbers of middling size.
-/

namespace Checkpointing

/-- The positive number `mantissa · 2 ^ exponent`. -/
structure Dyadic where
  mantissa : Nat
  exponent : Int
  /-- The next smaller float is only half as far away as the next larger one. -/
  narrowBelow : Bool
deriving Repr, DecidableEq

namespace Dyadic

/-- The weight of the sign among the bits of a float. -/
def signWeight : Nat := 9223372036854775808

/-- The weight of the lowest bit of the exponent, which is also that of the leading bit that a
mantissa leaves out. -/
def leadingWeight : Nat := 4503599627370496

/-- The magnitude of a float, unless it is zero, infinite or not a number. -/
def ofFloat? (x : Float) : Option Dyadic :=
  let bits : Nat := x.toBits.toNat % signWeight
  let field : Nat := bits / leadingWeight
  let fraction : Nat := bits % leadingWeight
  if field = 2047 ∨ bits = 0 then none
  else if field = 0 then some ⟨fraction, -1074, false⟩
  else some ⟨leadingWeight + fraction, (field : Int) - 1075, fraction == 0 && 1 < field⟩

/-- The number of quarters of the last place from zero to the number. -/
def quarters (d : Dyadic) : Nat := 4 * d.mantissa

/-- The ends of the interval that rounds to the number, in quarters of the last place. -/
def lower (d : Dyadic) : Nat := d.quarters - if d.narrowBelow then 1 else 2

/-- The upper end of that interval. -/
def upper (d : Dyadic) : Nat := d.quarters + 2

/-- Numerator and denominator of a quarter of the last place, counted in units of `10 ^ k`. -/
def unit (d : Dyadic) (k : Int) : Nat × Nat :=
  (Nat.pow 2 (d.exponent - 2).toNat * Nat.pow 10 (-k).toNat,
    Nat.pow 2 (2 - d.exponent).toNat * Nat.pow 10 k.toNat)

/-- Whether `n` units of `10 ^ k` round to the number; the ends do when the mantissa is even. -/
def roundsHere (d : Dyadic) (k : Int) (n : Nat) : Bool :=
  let (num, den) := d.unit k
  if d.mantissa % 2 = 0 then d.lower * num ≤ n * den && n * den ≤ d.upper * num
  else d.lower * num < n * den && n * den < d.upper * num

/-- The point of the grid `10 ^ k` that rounds to the number, the nearer of two. -/
def gridPoint? (d : Dyadic) (k : Int) : Option Nat :=
  let (num, den) := d.unit k
  let below := d.quarters * num / den
  let above := below + 1
  match d.roundsHere k below, d.roundsHere k above with
  | false, false => none
  | true, false => some below
  | false, true => some above
  | true, true =>
    let down := d.quarters * num - below * den
    let up := above * den - d.quarters * num
    if down < up || (down == up && below % 2 == 0) then some below else some above

/-- The digits on the coarsest grid `10 ^ k` that has a point for the number, with `k`. -/
def shortest? (d : Dyadic) : Option (Nat × Int) :=
  (List.range 660).findSome? fun (i : Nat) =>
    let k : Int := 310 - (i : Int)
    (d.gridPoint? k).map fun n => (n, k)

end Dyadic

namespace Decimal

/-- Writes `digits · 10 ^ k`: positionally if the point falls within the first 16 digits or at most
four zeros after the point precede them, and with an exponent otherwise. -/
def render (digits : Nat) (k : Int) : String :=
  let text := toString digits
  let point : Int := text.length + k
  if 0 ≤ k ∧ point ≤ 16 then text ++ "".pushn '0' k.toNat ++ ".0"
  else if 0 < point ∧ point ≤ 16 then
    String.ofList (text.toList.take point.toNat) ++ "." ++
      String.ofList (text.toList.drop point.toNat)
  else if -5 < point ∧ point ≤ 0 then "0." ++ "".pushn '0' (-point).toNat ++ text
  else if text.length = 1 then s!"{text}e{point - 1}"
  else String.ofList (text.toList.take 1) ++ "." ++ String.ofList (text.toList.drop 1) ++
    s!"e{point - 1}"

/-- The shortest text that reads back as the float, unless it is infinite or not a number. -/
def ofFloat? (x : Float) : Option String :=
  let sign := if x.toBits.toNat < Dyadic.signWeight then "" else "-"
  if x == 0 then some (sign ++ "0.0")
  else
    (Dyadic.ofFloat? x).bind fun d => d.shortest?.map fun (digits, k) => sign ++ render digits k

end Decimal

end Checkpointing

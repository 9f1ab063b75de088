import Checkpointing.Settings

/-!
# Restart plans

How a failed task is brought back: not at all, after a fixed delay, or after delays that grow by a
factor from one restart to the next.  Growing delays are computed with floats in whole milliseconds
and rounded to the nearest one, a half away from zero.

## Main definitions

* `RestartPlan` and `Backoff`, which counts the restarts that were used up.
* `Backoff.next?` uses up one restart and answers its delay.
-/

namespace Checkpointing

/-- How a failed task is brought back. -/
inductive RestartPlan where
  | never
  | fixed (maxAttempts : Nat) (delay : Duration)
  /-- The first delay, the longest delay, and the factor from one delay to the next. -/
  | growing (initial longest : Duration) (factor : Float) (maxAttempts : Nat)
deriving Repr, Inhabited

/-- How many restarts the plan allows. -/
def RestartPlan.maxAttempts : RestartPlan → Nat
  | never => 0
  | fixed n _ => n
  | growing _ _ _ n => n

namespace Growth

/-- Takes `n` further binary digits of an exponent into `product`, where `square` is the base raised
to the power of two at hand. -/
def powerFrom (product square : Float) (n : Nat) : Float :=
  let product := if n % 2 = 1 then product * square else product
  if n / 2 = 0 then product else powerFrom product (square * square) (n / 2)
termination_by n
decreasing_by omega

/-- The power of a float by repeated squaring. -/
def power (x : Float) (n : Nat) : Float := powerFrom 1 x n

/-- The greater of two floats; what is not a number is ignored. -/
def greater (x y : Float) : Float :=
  if x.isNaN then y else if y.isNaN then x else if x < y then y else x

/-- The smaller of two floats; what is not a number is ignored. -/
def smaller (x y : Float) : Float :=
  if x.isNaN then y else if y.isNaN then x else if y < x then y else x

/-- The whole milliseconds of a duration as a float. -/
def millis (d : Duration) : Float := (UInt64.ofNat d.writtenMillis).toFloat

/-- The delay before the restart that follows `n` others. -/
def delay (initial longest : Duration) (factor : Float) (n : Nat) : Duration :=
  let grown := (millis initial * power (greater factor 1) n).round
  .ofMillis (smaller grown (millis longest)).toUInt64.toNat

end Growth

/-- The restarts used up under a plan. -/
structure Backoff where
  plan : RestartPlan
  attempts : Nat
deriving Repr

namespace Backoff

/-- No restart was used up yet. -/
def fresh (plan : RestartPlan) : Backoff := ⟨plan, 0⟩

/-- How many restarts are left. -/
def remaining (b : Backoff) : Nat := b.plan.maxAttempts - b.attempts

/-- Uses up one restart and answers the delay before it, unless none is left. -/
def next? (b : Backoff) : Option (Duration × Backoff) :=
  if b.remaining = 0 then none
  else
    let used := { b with attempts := b.attempts + 1 }
    match b.plan with
    | .never => none
    | .fixed _ delay => some (delay, used)
    | .growing initial longest factor _ =>
      some (Growth.delay initial longest factor b.attempts, used)

/-- Forgets the restarts that were used up. -/
def reset (b : Backoff) : Backoff := { b with attempts := 0 }

end Backoff

end Checkpointing

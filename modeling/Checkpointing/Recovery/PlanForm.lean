import Checkpointing.Format.Record
import Checkpointing.Json.Forms
import Checkpointing.Recovery.Backoff

/-!
# The forms of restart plans

A restart plan is written as a JSON object whose member `type` names the kind of plan.  That member
may stand anywhere among the others, so these are read as they come and looked at when all are
there.
-/

namespace Checkpointing

namespace RestartPlan

/-- The kinds of plans. -/
inductive Kind where
  | never
  | fixed
  | growing
deriving Repr, DecidableEq

namespace Kind

/-- The kind's name. -/
def name : Kind → String
  | never => "no-restart"
  | fixed => "fixed-delay"
  | growing => "exponential-delay"

/-- All kinds. -/
def all : List Kind := [never, fixed, growing]

/-- The names of what belongs to a plan of the kind, in order. -/
def members : Kind → List String
  | never => []
  | fixed => ["max_attempts", "delay_ms"]
  | growing => ["initial_ms", "max_ms", "multiplier", "max_attempts"]

end Kind

/-- The plan as an object. -/
def json : RestartPlan → Json
  | never => .object [("type", .text Kind.never.name)]
  | fixed n delay =>
    .object [("type", .text Kind.fixed.name), ("max_attempts", .nat n), ("delay_ms", delay.json)]
  | growing initial longest factor n =>
    .object [("type", .text Kind.growing.name), ("initial_ms", initial.json),
      ("max_ms", longest.json), ("multiplier", .real factor), ("max_attempts", .nat n)]

/-- The plan in binary: the name of its kind, then what belongs to it. -/
def encode : RestartPlan → Bytes
  | never => Codec.text.encode Kind.never.name
  | fixed n delay =>
    Codec.text.encode Kind.fixed.name ++ Record.word32.encode n ++ Record.duration.encode delay
  | growing initial longest factor n =>
    Codec.text.encode Kind.growing.name ++ Record.duration.encode initial ++
      Record.duration.encode longest ++ Record.word64.encode factor.toBits.toNat ++
      Record.word32.encode n

/-! ### Reading -/

/-- A count up to `greatest`. -/
def countOf? (greatest : Nat) : Json → Option Nat
  | .whole i => if 0 ≤ i ∧ i ≤ greatest then some i.toNat else none
  | _ => none

/-- A duration in milliseconds. -/
def durationOf? (j : Json) : Option Duration := (countOf? Word.max64 j).map .ofMillis

/-- Any number. -/
def floatOf? : Json → Option Float
  | .whole i =>
    some (if i < 0 then -(UInt64.ofNat (-i).toNat).toFloat else (UInt64.ofNat i.toNat).toFloat)
  | .real x => some x
  | _ => none

/-- The plan of a kind that the values of its members make. -/
def ofValues? : Kind → List Json → Option RestartPlan
  | .never, [] => some .never
  | .fixed, [n, delay] => do return .fixed (← countOf? Word.max32 n) (← durationOf? delay)
  | .growing, [initial, longest, factor, n] => do
    return .growing (← durationOf? initial) (← durationOf? longest) (← floatOf? factor)
      (← countOf? Word.max32 n)
  | _, _ => none

/-- The value of the only member of a name. -/
def memberOf? (fields : List (String × Json)) (name : String) : Option Json :=
  match fields.filter fun f => f.1 == name with
  | [(_, j)] => some j
  | _ => none

/-- The plan of a kind that members make; members of other names do not matter. -/
def ofMembers? (kind : Kind) (fields : List (String × Json)) : Option RestartPlan :=
  (kind.members.mapM (memberOf? fields)).bind (ofValues? kind)

end RestartPlan

namespace Reader

/-- How deep values may be nested below a plan. -/
def planDepth : Nat := 126

/-- Reads the name of a kind of plans. -/
def planKind : Reader RestartPlan.Kind := fun cs => do
  let (name, rest) ← string cs
  match RestartPlan.Kind.all.find? fun k => k.name == name with
  | none => .error .mismatched
  | some kind => .ok (kind, rest)

/-- What was read of a plan's object so far. -/
abbrev PlanParts := Option RestartPlan.Kind × List (String × Json)

/-- How the value of a name is read: the kind once and at once, everything else as it comes. -/
def acceptPlanPart (name : String) (parts : PlanParts) : Except ReadFault (Reader PlanParts) :=
  if name = "type" then
    if parts.1.isSome then .error .mismatched
    else .ok fun cs => (planKind cs).map fun (kind, rest) => ((some kind, parts.2), rest)
  else
    .ok fun cs => (valueWithin true planDepth cs).map fun (j, rest) =>
      ((parts.1, parts.2 ++ [(name, j)]), rest)

/-- The plan that is made of what was read. -/
def planOf (plan? : Option RestartPlan) (rest : List Char) :
    Except ReadFault (RestartPlan × List Char) :=
  match plan? with
  | none => .error .mismatched
  | some plan => .ok (plan, rest)

/-- Reads the other elements of an array after its first one. -/
def laterElements (cs : List Char) : Except ReadFault (List Json × List Char) :=
  match skipBlanks cs with
  | [] => .error .endOfInput
  | ']' :: rest => .ok ([], rest)
  | ',' :: rest => elementsFrom (valueWithin true planDepth) (rest.length + 1) rest
  | _ => .error .malformed

/-- Reads a restart plan: an object, or an array of its kind and what belongs to it. -/
def restartPlan : Reader RestartPlan := fun cs =>
  match skipBlanks cs with
  | [] => .error .endOfInput
  | '{' :: rest => do
    let ((kind, fields), rest) ← members true acceptPlanPart (none, []) rest
    planOf (kind.bind fun k => RestartPlan.ofMembers? k fields) rest
  | '[' :: rest =>
    match skipBlanks rest with
    | [] => .error .endOfInput
    | ']' :: _ => .error .mismatched
    | rest => do
      let (kind, rest) ← planKind rest
      let (values, rest) ← laterElements rest
      planOf (RestartPlan.ofValues? kind values) rest
  | cs => refuse cs

end Reader

end Checkpointing

import Checkpointing.Task

/-!
# Relays

A relay passes every change of a task's state on to its listeners in order; relays may listen to
relays.
-/

namespace Checkpointing

/-- A listener, or several joined to one. -/
inductive Relay where
  | listener (name : String)
  | joined (parts : List Relay)
deriving Repr, Inhabited

/-- A run switches from one state to another. -/
structure StateChange where
  run : TaskRun
  previous : TaskState
  next : TaskState
deriving Repr, DecidableEq

/-- The change in words. -/
def StateChange.text (c : StateChange) : String :=
  s!"{c.run.text} {c.previous.text}->{c.next.text}"

namespace Relay

mutual

/-- The listeners that a change reaches, in order and as often as it reaches them. -/
def reached : Relay → List String
  | .listener name => [name]
  | .joined parts => reachedBy parts

/-- The listeners that a change reaches through any of several relays. -/
def reachedBy : List Relay → List String
  | [] => []
  | part :: parts => reached part ++ reachedBy parts

end

mutual

/-- How many parts each joined relay has, the innermost first. -/
def sizes : Relay → List Nat
  | .listener _ => []
  | .joined parts => sizesOf parts ++ [parts.length]

/-- How many parts each joined relay among several has. -/
def sizesOf : List Relay → List Nat
  | [] => []
  | part :: parts => sizes part ++ sizesOf parts

end

/-- What the listeners are told of a change, in order. -/
def deliver (r : Relay) (c : StateChange) : List String :=
  r.reached.map fun name => s!"{name} {c.text}"

end Relay

end Checkpointing

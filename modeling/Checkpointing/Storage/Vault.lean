import Checkpointing.Event
import Checkpointing.Storage.Medium

/-!
# Vaults

A vault is a medium behind a gate: any request to keep or to throw away states may be refused
before it reaches the medium.  Which requests are refused is given by a `FaultPlan`, so that every
pattern of failures can be played through.

## Main definitions

* `Vault.request` makes one request and reports it as an event.
* `Vault.sweep` throws away the snapshots of a list that meet a condition, whatever fails.
-/

namespace Checkpointing

/-- Which requests are refused and why, by the number of requests made before. -/
abbrev FaultPlan := Nat → StorageCall → Option StorageFailure

/-- No request is refused. -/
def FaultPlan.none : FaultPlan := fun _ _ => .none

/-- A kind of requests. -/
inductive CallKind where
  | persist
  | discard
  | cleanup
deriving Repr, DecidableEq

namespace CallKind

/-- The kind's name. -/
def name : CallKind → String
  | persist => "persist"
  | discard => "discard"
  | cleanup => "cleanup"

/-- What the storage says when it refuses such requests. -/
def cause : CallKind → String
  | persist => "disk full"
  | discard => "disk unavailable"
  | cleanup => "disk offline"

end CallKind

namespace StorageCall

/-- The kind of the request. -/
def kind : StorageCall → CallKind
  | persist .. => .persist
  | discard _ => .discard
  | cleanup _ => .cleanup

/-- The subtask whose state is to be kept. -/
def subtask? : StorageCall → Option Nat
  | persist _ run _ => some run.subtask
  | _ => none

end StorageCall

/-- A rule that refuses requests of one kind, of one checkpoint or all, for one subtask or all.
Only requests to keep a state are made for a subtask. -/
structure FaultRule where
  kind : CallKind
  id : Option Nat
  subtask : Option Nat
deriving Repr, DecidableEq

namespace FaultRule

/-- Whether the rule refuses the request. -/
def matches? (r : FaultRule) (call : StorageCall) : Bool :=
  r.kind == call.kind && (r.id.all fun i => i == call.id) &&
    (r.subtask.all fun s => call.subtask? == some s)

/-- Why the rule refuses the request. -/
def failure (call : StorageCall) : StorageFailure :=
  (StorageFailure.of call.kind.cause).within s!"{call.kind.name} of {call.id} failed"

/-- Refuses whatever one of the rules refuses. -/
def plan (rules : List FaultRule) : FaultPlan := fun _ call =>
  if rules.any fun r => r.matches? call then some (failure call) else none

end FaultRule

/-- A medium behind a gate. -/
structure Vault where
  medium : Medium
  faults : FaultPlan
  /-- How many requests were made. -/
  calls : Nat

namespace Vault

/-- The vault around a medium. -/
def of (medium : Medium) (faults : FaultPlan) : Vault := ⟨medium, faults, 0⟩

/-- Makes a request that was not refused. -/
def perform (m : Medium) : StorageCall → Medium × Option StorageFailure
  | .persist id run state => m.persist id run state
  | .discard id | .cleanup id => m.discard id

/-- Makes a request.  The event tells whether it was refused; the failure, if there is one, is the
refusal's or the medium's. -/
def request (v : Vault) (call : StorageCall) : Vault × Event × Option StorageFailure :=
  match v.faults v.calls call with
  | some failure => ({ v with calls := v.calls + 1 }, .storage call true, some failure)
  | none =>
    let (medium, failure) := perform v.medium call
    ({ v with medium := medium, calls := v.calls + 1 }, .storage call false, failure)

/-- What came of throwing away snapshots. -/
structure Sweep where
  vault : Vault
  events : List Event
  /-- The snapshots that are gone. -/
  discarded : List Snapshot
  /-- The snapshots that did not meet the condition or could not be thrown away. -/
  kept : List Snapshot
  /-- The failed requests, by id. -/
  failures : List (Nat × StorageFailure)

/-- Throws away the snapshots that meet the condition, in order and to the end. -/
def sweep (v : Vault) (condition : Snapshot → Bool) : List Snapshot → Sweep
  | [] => ⟨v, [], [], [], []⟩
  | s :: rest =>
    if condition s then
      match v.request (.discard s.id) with
      | (v, event, none) =>
        let r := v.sweep condition rest
        { r with events := event :: r.events, discarded := s :: r.discarded }
      | (v, event, some failure) =>
        let r := v.sweep condition rest
        { r with
          events := event :: r.events
          kept := s :: r.kept
          failures := (s.id, failure) :: r.failures }
    else
      let r := v.sweep condition rest
      { r with kept := s :: r.kept }

/-- Keeps the states of participants in order, up to the first failure. -/
def persistAll (v : Vault) (id : Nat) :
    List (TaskRun × Bytes) → Vault × List Event × Option StorageFailure
  | [] => (v, [], none)
  | (run, state) :: rest =>
    match v.request (.persist id run state) with
    | (v, event, some failure) => (v, [event], some failure)
    | (v, event, none) =>
      let (v, events, failure) := v.persistAll id rest
      (v, event :: events, failure)

end Vault

end Checkpointing

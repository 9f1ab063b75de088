import Checkpointing.Coordinator.Basic
import Checkpointing.Coordinator.Statistics

/-!
# Monitored coordinators

A coordinator together with those who listen: the statistics, which hear every notice, and a log of
the signals to tasks.

## Main definitions

* `Monitored.step` performs a request and lets everybody hear of it.
* `SignalLog` answers which runs were sent which signals for a checkpoint.
-/

namespace Checkpointing

/-- The signals sent to tasks. -/
structure SignalLog where
  /-- The signals, the latest first, so that a long log grows as fast as a short one. -/
  newestFirst : List Signal
deriving Repr

namespace SignalLog

/-- No signal was sent. -/
def empty : SignalLog := ⟨[]⟩

/-- The signals in the order in which they were sent. -/
def toList (l : SignalLog) : List Signal := l.newestFirst.reverse

/-- Adds signals that were sent in this order. -/
def append (l : SignalLog) (signals : List Signal) : SignalLog :=
  ⟨signals.reverse ++ l.newestFirst⟩

@[simp]
theorem toList_empty : empty.toList = [] := rfl

@[simp]
theorem toList_append (l : SignalLog) (signals : List Signal) :
    (l.append signals).toList = l.toList ++ signals := by
  simp [toList, append]

/-- The runs that were asked to take part in a checkpoint. -/
def triggered (l : SignalLog) (id : Nat) : List TaskRun :=
  l.toList.filterMap fun
    | .trigger run i .. => if i = id then some run else none
    | _ => none

/-- The runs that were told that a checkpoint is over without a snapshot. -/
def aborted (l : SignalLog) (id : Nat) : List TaskRun :=
  l.toList.filterMap fun
    | .abort run i _ => if i = id then some run else none
    | _ => none

/-- The runs that were told that a checkpoint has its snapshot. -/
def notified (l : SignalLog) (id : Nat) : List TaskRun :=
  l.toList.filterMap fun
    | .complete run i => if i = id then some run else none
    | _ => none

/-- How many signals of each kind were sent: to take part, of an abort and of a completion. -/
def counts (l : SignalLog) : Nat × Nat × Nat :=
  l.toList.foldl (fun (t, a, n) s =>
    match s with
    | .trigger .. => (t + 1, a, n)
    | .abort .. => (t, a + 1, n)
    | .complete .. => (t, a, n + 1)) (0, 0, 0)

end SignalLog

/-- A coordinator and those who listen. -/
structure Monitored where
  coordinator : Coordinator
  statistics : Statistics
  signals : SignalLog

namespace Monitored

/-- A coordinator to which nobody has listened yet. -/
def of (c : Coordinator) : Monitored := ⟨c, .empty, .empty⟩

/-- Changes the vault from outside. -/
def mapVault (m : Monitored) (f : Vault → Vault) : Monitored :=
  let a := m.coordinator.archive
  { m with coordinator := { m.coordinator with archive := { a with vault := f a.vault } } }

/-- Lets everybody hear what happened on the way to the coordinator's next state. -/
def hear (m : Monitored) (c : Coordinator) (events : List Event) : Except Overflow Monitored :=
  (m.statistics.observeAll events).map fun statistics =>
    ⟨c, statistics, m.signals.append (events.filterMap Event.signal?)⟩

/-- Performs a request and lets everybody hear of it. -/
def step (m : Monitored) (r : Request) : Except Overflow (Monitored × List Event × Reply) :=
  (m.coordinator.step r).bind fun (c, events, reply) =>
    (m.hear c events).map fun m => (m, events, reply)

end Monitored

end Checkpointing

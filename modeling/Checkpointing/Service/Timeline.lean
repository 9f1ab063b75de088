import Checkpointing.Service.Basic

/-!
# Timelines

A service in time: timers fire and periodic checkpoints are triggered when they are due, and tasks
react to the signals that they get with messages of their own, which queue up behind those that were
sent before.  Nothing of this takes any time.

## Main definitions

* `Reaction` is how tasks react to signals, with a state of their own.
* `Timeline.exchange` sends messages and lets everybody react, `Timeline.fire` does what is due.
* `Timeline.due?` is when something is due next.
-/

namespace Checkpointing

/-- How tasks react to a signal at an instant: with a new state of their own and with messages. -/
abbrev Reaction (σ : Type) := Nat → σ → Signal → σ × List Message

/-- A service in time. -/
structure Timeline where
  service : Service
  /-- The current instant, in nanoseconds from the start. -/
  clock : Nat
  /-- The pause between two periodic checkpoints. -/
  period : Nat
  /-- When the next periodic checkpoint is due, if there are periodic checkpoints. -/
  nextTick : Option Nat

/-- What came of sending messages. -/
structure Exchange (σ : Type) where
  timeline : Timeline
  tasks : σ
  events : List Event
  /-- The answer to each message; none if the service had stopped before. -/
  answers : List (Option Answer)

namespace Timeline

variable {σ : Type}

/-- A service that starts now.  The first periodic checkpoint waits for one interval, which is a
millisecond at least. -/
def start (c : Coordinator) (periodic : Bool) : Timeline :=
  let period := (max c.settings.interval (.ofMillis 1)).wait
  ⟨.of c, 0, period, if periodic then some period else none⟩

/-- The tasks react to signals, one after the other. -/
def reactAll (react : Reaction σ) (clock : Nat) (tasks : σ) : List Signal → σ × List Message
  | [] => (tasks, [])
  | signal :: signals =>
    let (tasks, messages) := react clock tasks signal
    let (tasks, more) := reactAll react clock tasks signals
    (tasks, messages ++ more)

/-- The tasks react to the signals among events. -/
def reactTo (react : Reaction σ) (t : Timeline) (tasks : σ) (events : List Event) :
    σ × List Message :=
  reactAll react t.clock tasks (events.filterMap Event.signal?)

/-- Handles messages in order and collects the messages with which the tasks react. -/
def handleAll (react : Reaction σ) (t : Timeline) (tasks : σ) :
    List Message → Except Overflow (Exchange σ × List Message)
  | [] => .ok (⟨t, tasks, [], []⟩, [])
  | m :: ms =>
    if t.service.running then
      (t.service.handle t.clock m).bind fun (service, events, answer) =>
        let t := { t with service := service }
        let (tasks, reactions) := reactTo react t tasks events
        (handleAll react t tasks ms).map fun (rest, more) =>
          ({ rest with events := events ++ rest.events, answers := some answer :: rest.answers },
            reactions ++ more)
    else
      (handleAll react t tasks ms).map fun (rest, more) =>
        ({ rest with answers := none :: rest.answers }, more)

/-- Expires the rounds whose timers are due. -/
def expireOverdue (react : Reaction σ) (t : Timeline) (tasks : σ) :
    Except Overflow (Exchange σ) :=
  let overdue := if t.service.running then t.service.overdue t.clock else []
  let t := { t with service := t.service.noteFired t.clock }
  (handleAll react t tasks (overdue.map .expire)).map (·.1)

/-- Sends messages, then the reactions to them, and then expires what is overdue.  Neither reactions
nor expirations open rounds, so tasks have nothing to react to after the first messages. -/
def exchange (react : Reaction σ) (t : Timeline) (tasks : σ) (ms : List Message) :
    Except Overflow (Exchange σ) :=
  (handleAll react t tasks ms).bind fun (first, reactions) =>
    (handleAll react first.timeline first.tasks reactions).bind fun (second, _) =>
      (expireOverdue react second.timeline second.tasks).map fun third =>
        { third with
          events := first.events ++ second.events ++ third.events
          answers := first.answers }

/-- When something is due next. -/
def due? (t : Timeline) : Option Nat :=
  if t.service.running then
    match t.nextTick, t.service.nextDue? with
    | none, timer => timer
    | tick, none => tick
    | some tick, some timer => some (min tick timer)
  else none

/-- Triggers the periodic checkpoint that is due, and lets the tasks react. -/
def fireTick (react : Reaction σ) (t : Timeline) (tasks : σ) : Except Overflow (Exchange σ) :=
  match t.nextTick with
  | none => .ok ⟨t, tasks, [], []⟩
  | some tick =>
    if t.service.running && tick ≤ t.clock then
      (t.service.tick t.clock).bind fun (service, events) =>
        let t := { t with service := service, nextTick := some (t.clock + t.period) }
        let (tasks, reactions) := reactTo react t tasks events
        (exchange react t tasks reactions).map fun rest =>
          { rest with events := events ++ rest.events }
    else .ok ⟨t, tasks, [], []⟩

/-- Moves on to an instant and does what is due there: first the periodic checkpoint is triggered,
then the timers fire. -/
def fire (react : Reaction σ) (t : Timeline) (tasks : σ) (clock : Nat) :
    Except Overflow (Exchange σ) :=
  (fireTick react { t with clock := clock } tasks).bind fun first =>
    (expireOverdue react first.timeline first.tasks).map fun second =>
      { second with events := first.events ++ second.events }

/-- An upper bound for the number of instants up to `target` at which something is due. -/
def instants (t : Timeline) (target : Nat) : Nat :=
  2 * ((target - t.clock) / max t.period 1 + 2) + t.service.timers.length

end Timeline

end Checkpointing

import Checkpointing.Service.Timeline

/-!
# Clients

A client works with a service through handles.  It starts attempts and hears of their outcome later,
calls for a checkpoint and waits for it, and sends everything else a service understands.  The
service lives as long as somebody holds a handle: the client itself or a call that waits.  Tasks
that answer on their own do so through the client's handle, and fall silent when it is let go.

## Main definitions

* `Responder` says which tasks answer every trigger at once.
* `Client.startAttempt`, `call` and `send` talk to the service, `advance` lets time pass, `release`
  lets the client's own handle go.
-/

namespace Checkpointing

/-- Tasks that answer every trigger at once, by their subtask. -/
structure Responder where
  acknowledging : List Nat
  declining : List Nat
deriving Repr

namespace Responder

/-- Nobody answers on their own. -/
def silent : Responder := ⟨[], []⟩

/-- Answers a trigger: an acknowledgment carries the checkpoint's id as its state. -/
def react (r : Responder) : Reaction Unit := fun _ _ signal =>
  match signal with
  | .trigger run id .. =>
    ((), (if r.acknowledging.contains run.subtask then
        [.acknowledge id run (Codec.wordBytes 8 id)] else []) ++
      (if r.declining.contains run.subtask then [.decline id run "auto"] else []))
  | _ => ((), [])

end Responder

/-- Who wants to hear of an outcome. -/
inductive Waiter where
  /-- Whoever started the attempt of the given id. -/
  | attempt (id : Nat)
  /-- The call of the given number. -/
  | call (number : Nat)
deriving Repr, DecidableEq

/-- A client with its service. -/
structure Client where
  timeline : Timeline
  responder : Responder
  /-- Who waits for the outcome of which checkpoint, in the order in which they began to. -/
  waiting : List (Waiter × Nat)
  /-- How many calls were made. -/
  calls : Nat
  /-- The client still holds its own handle. -/
  holding : Bool

/-- What happened in one step of a client. -/
structure ClientStep (α : Type) where
  client : Client
  result : α
  events : List Event
  /-- The outcomes that became known, in the order in which they were waited for. -/
  heard : List (Waiter × Outcome)

/-- The same step with another view of its result. -/
def ClientStep.map {α β : Type} (f : α → β) (s : ClientStep α) : ClientStep β :=
  ⟨s.client, f s.result, s.events, s.heard⟩

namespace Client

/-- A client of a service that starts now. -/
def start (c : Coordinator) (periodic : Bool) (responder : Responder) : Client :=
  ⟨.start c periodic, responder, [], 0, true⟩

/-- Whether the service is running. -/
def running (c : Client) : Bool := c.timeline.service.running

/-- A call still waits. -/
def inCall (c : Client) : Bool :=
  c.waiting.any fun (w, _) =>
    match w with
    | .call _ => true
    | .attempt _ => false

/-- Stops the service when nobody holds a handle any more. -/
def reap (c : Client) : Client :=
  if c.holding || c.inCall then c
  else { c with timeline := { c.timeline with service := c.timeline.service.stop } }

/-- The outcome of a checkpoint among events. -/
def outcome? (events : List Event) (id : Nat) : Option Outcome :=
  events.findSome? fun
    | .resolved i outcome => if i = id then some outcome else none
    | _ => none

/-- Tells those who wait the outcomes among events. -/
def hear (c : Client) (events : List Event) : Client × List (Waiter × Outcome) :=
  (({ c with waiting := c.waiting.filter fun (_, id) => (outcome? events id).isNone }).reap,
    c.waiting.filterMap fun (w, id) => (outcome? events id).map fun o => (w, o))

/-- Sends a message and waits for the answer, which does not come if the service has stopped. -/
def send (c : Client) (m : Message) : Except Overflow (ClientStep (Option Answer)) :=
  (c.timeline.exchange c.responder.react () [m]).map fun e =>
    let (client, heard) := { c with timeline := e.timeline }.hear e.events
    ⟨client, (e.answers.head?).join, e.events, heard⟩

/-- Whom to tell the outcome of an attempt that an answer reports to be under way. -/
def accepted (answer : Option Answer) : Except SnapshotError Nat :=
  match answer with
  | some (.reply (.triggered r)) => r
  | _ => .error .serviceStopped

/-- Triggers a checkpoint for a waiter.  The outcome may be known at once. -/
def begin (c : Client) (policy : SnapshotPolicy) (waiter : Nat → Waiter) :
    Except Overflow (ClientStep (Except SnapshotError Nat)) :=
  (c.timeline.exchange c.responder.react () [.trigger policy]).map fun e =>
    let result := accepted (e.answers.head?).join
    let new := match result with
      | .ok id => [(waiter id, id)]
      | .error _ => []
    let (client, heard) :=
      { c with timeline := e.timeline, waiting := c.waiting ++ new }.hear e.events
    ⟨client, result, e.events, heard⟩

/-- Starts an attempt and answers its id. -/
def startAttempt (c : Client) (policy : SnapshotPolicy) :
    Except Overflow (ClientStep (Except SnapshotError Nat)) :=
  c.begin policy .attempt

/-- What a call hears at once: the reason if it is refused. -/
def refusal (number : Nat) : Except SnapshotError Nat → List (Waiter × Outcome)
  | .ok _ => []
  | .error e => [(.call number, .error e)]

/-- Calls for a checkpoint in the background and answers the number of the call. -/
def call (c : Client) (policy : SnapshotPolicy) : Except Overflow (ClientStep Nat) :=
  let number := c.calls + 1
  (begin { c with calls := number } policy fun _ => .call number).map fun s =>
    ⟨s.client, number, s.events, s.heard ++ refusal number s.result⟩

/-- The same client, whose service's storage refuses other requests from now on. -/
def withFaults (c : Client) (faults : FaultPlan) : Client :=
  { c with timeline := { c.timeline with service := c.timeline.service.withFaults faults } }

/-- Lets the client's own handle go, and with it the answers of tasks. -/
def release (c : Client) : Client := { c with holding := false, responder := .silent }.reap

/-- Does what is due up to an instant, one after the other, at most `fuel` times. -/
def advanceFor (c : Client) (target : Nat) : Nat → Except Overflow (ClientStep Unit)
  | 0 => .ok ⟨c, (), [], []⟩
  | fuel + 1 =>
    match c.timeline.due? with
    | none => .ok ⟨c, (), [], []⟩
    | some t =>
      if t ≤ target then
        (c.timeline.fire c.responder.react () (max t c.timeline.clock)).bind fun e =>
          let (client, heard) := { c with timeline := e.timeline }.hear e.events
          (client.advanceFor target fuel).map fun rest =>
            { rest with events := e.events ++ rest.events, heard := heard ++ rest.heard }
      else .ok ⟨c, (), [], []⟩

/-- Puts what was heard into the order in which it was waited for. -/
def inOrder (waiting : List (Waiter × Nat)) (heard : List (Waiter × Outcome)) :
    List (Waiter × Outcome) :=
  waiting.filterMap fun (w, _) => (heard.find? fun h => h.1 == w)

/-- Waits for a while. -/
def advance (c : Client) (time : Duration) : Except Overflow (ClientStep Unit) :=
  let target := c.timeline.clock + time.wait
  (c.advanceFor target (c.timeline.instants target)).map fun s =>
    { s with
      client := { s.client with timeline := { s.client.timeline with clock := target } }
      heard := inOrder c.waiting s.heard }

end Client

end Checkpointing

import Checkpointing.Coordinator.Monitored

/-!
# The coordinator service

A service owns a coordinator and handles one message after the other, in the order in which they
were sent.  It reads the time once for each message, sets a timer for every round that it opens, and
takes the timers of settled rounds away.

## Main definitions

* `Message` and `Answer` are what goes in and out.
* `Service.handle` handles a message, `Service.tick` triggers a periodic checkpoint; both leave
  timers for exactly the rounds under way.
-/

namespace Checkpointing

/-- What a service can be sent. -/
inductive Message where
  | trigger (policy : SnapshotPolicy)
  | acknowledge (id : Nat) (run : TaskRun) (state : Bytes)
  | decline (id : Nat) (run : TaskRun) (reason : String)
  | update (run : TaskRun) (state : TaskState)
  | expire (id : Nat)
  | restore (mode : ClaimMode)
  | dispose (id : Nat)
  | listCompleted
  | listRounds
  /-- Closes the coordinator and stops the service. -/
  | shutdown (status : JobStatus)
deriving Repr

namespace Message

/-- The request to the coordinator in a message that is handled at a given time. -/
def request? (time : Int) : Message → Option Request
  | trigger policy => some (.trigger policy time)
  | acknowledge id run state => some (.acknowledge id run state time)
  | decline id run reason => some (.decline id run reason)
  | update run state => some (.update run state)
  | expire id => some (.expire id)
  | restore mode => some (.restore mode)
  | dispose id => some (.dispose id)
  | listCompleted | listRounds => none
  | shutdown status => some (.close status)

/-- Whether the service stops after the message. -/
def isLast : Message → Bool
  | shutdown _ => true
  | _ => false

end Message

/-- What a service answers to a message. -/
inductive Answer where
  | reply (r : Reply)
  | completed (infos : List SnapshotInfo)
  | rounds (ids : List Nat)
deriving Repr

/-- The time limit of a round; instants are counted in nanoseconds from the start. -/
structure Timer where
  id : Nat
  /-- The instant at which the round was opened. -/
  since : Nat
  /-- How long the round may take. -/
  limit : Duration
  /-- The wait for the limit is over and the service was told. -/
  fired : Bool
deriving Repr, DecidableEq

namespace Timer

/-- The instant at which the time of the round is over. -/
def deadline (t : Timer) : Nat := t.since + t.limit

/-- The instant at which the timer fires: at the deadline, or before it if a wait cannot last as
long. -/
def due (t : Timer) : Nat := t.since + t.limit.wait

theorem due_eq_deadline {t : Timer} (h : t.limit ≤ Duration.longestWait) : t.due = t.deadline := by
  simp [due, deadline, Duration.wait_of_le h]

end Timer

/-- A coordinator that handles messages. -/
structure Service where
  monitored : Monitored
  timers : List Timer
  running : Bool

namespace Service

/-- The service of a coordinator to which nobody has listened yet. -/
def of (c : Coordinator) : Service := ⟨.of c, [], true⟩

/-- The coordinator. -/
def coordinator (s : Service) : Coordinator := s.monitored.coordinator

/-- The same service, whose storage refuses other requests from now on. -/
def withFaults (s : Service) (faults : FaultPlan) : Service :=
  { s with monitored := s.monitored.mapVault fun v => { v with faults := faults } }

/-- The timestamp of an instant: the whole milliseconds since the start. -/
def timestamp (clock : Nat) : Int := Word.toSigned (Duration.millis clock)

/-- Takes away the timers of rounds that are no longer under way. -/
def dropSettled (s : Service) : Service :=
  { s with timers := s.timers.filter fun t => s.coordinator.rounds.contains t.id }

/-- Sets the timer of a round that was opened just now. -/
def schedule (s : Service) (clock : Nat) : Reply → Service
  | .triggered (.ok id) =>
    let timer : Timer := ⟨id, clock, s.coordinator.settings.timeout, false⟩
    { s with timers := s.timers.filter (fun t => t.id != id) ++ [timer] }
  | _ => s

/-- Performs a request at an instant. -/
def perform (s : Service) (clock : Nat) (r : Request) :
    Except Overflow (Service × List Event × Reply) :=
  (s.monitored.step r).map fun (monitored, events, reply) =>
    (({ s with monitored := monitored }.schedule clock reply).dropSettled, events, reply)

/-- Stops the service; no timer is left. -/
def stop (s : Service) : Service := { s with timers := [], running := false }

/-- Handles a message at an instant. -/
def handle (s : Service) (clock : Nat) (m : Message) :
    Except Overflow (Service × List Event × Answer) :=
  match m.request? (timestamp clock) with
  | some r =>
    (s.perform clock r).map fun (s, events, reply) =>
      (if m.isLast then s.stop else s, events, .reply reply)
  | none =>
    match m with
    | .listCompleted => .ok (s, [], .completed (s.coordinator.archive.snapshots.map Snapshot.info))
    | _ => .ok (s, [], .rounds s.coordinator.rounds.keys)

/-- Triggers a periodic checkpoint at an instant; a refusal is passed over. -/
def tick (s : Service) (clock : Nat) : Except Overflow (Service × List Event) :=
  (s.perform clock
    (.trigger s.coordinator.settings.periodicPolicy (timestamp clock))).map fun (s, events, _) =>
      (s, events)

/-- The rounds whose timers are due at an instant and of which the service does not know yet. -/
def overdue (s : Service) (clock : Nat) : List Nat :=
  (s.timers.filter fun t => !t.fired && t.due ≤ clock).map (·.id)

/-- Takes note that the timers that are due at an instant have fired. -/
def noteFired (s : Service) (clock : Nat) : Service :=
  { s with timers := s.timers.map fun t =>
      if t.due ≤ clock then { t with fired := true } else t }

/-- When the next timer fires. -/
def nextDue? (s : Service) : Option Nat :=
  ((s.timers.filter fun t => !t.fired).map (·.due)).min?

end Service

end Checkpointing

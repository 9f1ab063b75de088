import Checkpointing.Coordinator.FailureBudget
import Checkpointing.Round
import Checkpointing.Settings
import Checkpointing.Storage.Archive

/-!
# The coordinator

The coordinator knows the current run of every subtask, opens rounds, collects the
acknowledgments, and turns a full round into a snapshot in the archive.  Every operation is a
function of the state and its arguments, timestamps included, and answers the events it causes in
the order in which they happen.

## Main definitions

* `Coordinator` and `Coordinator.open?`.
* `trigger`, `acknowledge`, `decline`, `update`, `expire`, `restore`, `dispose` and `close` are the
  operations.
* `Coordinator.step` performs any of them, given as a `Request`.
-/

namespace Checkpointing

/-- The state of a job's checkpoints. -/
structure Coordinator where
  settings : Settings
  archive : Archive
  /-- The id of the next round. -/
  nextId : Nat
  /-- The rounds under way, by id. -/
  rounds : Table Nat Round
  /-- The current run of every registered subtask, with its state. -/
  tasks : Table Slot (TaskRun × TaskState)
  /-- When the latest round was opened. -/
  lastTrigger : Option Int
  budget : FailureBudget
  closed : Bool

namespace Coordinator

/-- The id after those of the archive, so that no id is used again. -/
def firstId (archive : Archive) : Except Overflow Nat :=
  match archive.latest? with
  | none => .ok 1
  | some s => Word.next? Word.max64 s.id

/-- A coordinator without tasks. -/
def open? (settings : Settings) (archive : Archive) (hasHandler : Bool) :
    Except Overflow Coordinator :=
  (firstId archive).map fun nextId => {
    settings := settings
    archive := archive
    nextId := nextId
    rounds := ∅
    tasks := ∅
    lastTrigger := none
    budget := .fresh settings.tolerableFailures hasHandler
    closed := false }

/-! ### Tasks -/

/-- The current runs, ascending. -/
def runs (c : Coordinator) : List TaskRun := c.tasks.values.map (·.1)

/-- Takes note of the state of a run.  What an older run than the current one of its subtask
reports is ignored. -/
def register (c : Coordinator) (run : TaskRun) (state : TaskState) : Coordinator :=
  match c.tasks.find? run.slot with
  | some (current, _) =>
    if run.attempt < current.attempt then c
    else { c with tasks := c.tasks.insert run.slot (run, state) }
  | none => { c with tasks := c.tasks.insert run.slot (run, state) }

/-! ### Opening rounds -/

/-- Why a trigger has to be refused now, if it has.  A forced one only needs an open coordinator
and tasks that are all running. -/
def obstacle (c : Coordinator) (policy : SnapshotPolicy) (now : Int) :
    Except Overflow (Option RejectReason) :=
  if c.closed then .ok (some .shutDown)
  else if c.tasks.size = 0 then .ok (some .noTasks)
  else if !c.tasks.values.all fun (_, state) => state.isRunning then .ok (some .notAllRunning)
  else if policy.forced then .ok none
  else if c.settings.maxConcurrent ≤ c.rounds.size then .ok (some .tooManyConcurrent)
  else
    match c.lastTrigger with
    | none => .ok none
    | some last =>
      (Word.difference? now last).map fun pause =>
        if pause < c.settings.pauseMillis then some .minimumPause else none

/-- The one listener of a coordinator's rounds: what it hears is passed on as an event, to everyone
who listens to the coordinator. -/
def relay : Listener := "coordinator"

/-- Opens a round in which every current run takes part. -/
def launch (c : Coordinator) (policy : SnapshotPolicy) (now : Int) (nextId : Nat) :
    Coordinator × List Event :=
  let round := (Round.start c.nextId policy now c.runs [relay]).takeFuture
  ({ c with
     nextId := nextId
     rounds := c.rounds.insert c.nextId round
     lastTrigger := some now },
    .notice (.triggered c.nextId now) ::
      c.runs.map fun run => .signal (.trigger run c.nextId now policy))

/-- Opens a round unless there is an obstacle. -/
def trigger (c : Coordinator) (policy : SnapshotPolicy) (now : Int) :
    Except Overflow (Coordinator × List Event × Except SnapshotError Nat) :=
  (c.obstacle policy now).bind fun
    | some reason => .ok (c, [], .error (.rejected reason))
    | none =>
      (Word.next? Word.max64 c.nextId).map fun nextId =>
        let (c', events) := c.launch policy now nextId
        (c', events, .ok c.nextId)

/-! ### Aborting rounds -/

/-- What the outside hears of a settlement: what listeners are told, and the outcome for whoever
waits. -/
def settled (id : Nat) (s : Settlement) : List Event :=
  (s.calls.map fun call => .notice call.2) ++
    (s.delivery.map fun (_, outcome) => .resolved id outcome).toList

/-- Aborts a round.  Those who still owe an acknowledgment are told, the others are done. -/
def abortRound (c : Coordinator) (id : Nat) (reason : SnapshotError) :
    Coordinator × List Event × Bool :=
  match c.rounds.find? id with
  | none => (c, [], false)
  | some r =>
    let c := { c with rounds := c.rounds.erase id }
    match r.abort? reason with
    | none => (c, [], false)
    | some (_, settlement) =>
      let (budget, breach) := c.budget.failure reason
      ({ c with budget := budget },
        settled id settlement ++
          (r.owed.map fun run => .signal (.abort run id reason)) ++ breach,
        true)

/-- Aborts several rounds, each for its own reason. -/
def abortRounds (c : Coordinator) (reason : Nat → SnapshotError) :
    List Nat → Coordinator × List Event
  | [] => (c, [])
  | id :: ids =>
    let (c, events, _) := c.abortRound id (reason id)
    let (c, more) := c.abortRounds reason ids
    (c, events ++ more)

/-! ### Completing rounds -/

/-- Keeps the states of a full round and registers its snapshot. -/
def finalize (a : Archive) (r : Round) (now : Int) :
    Archive × List Event × Except SnapshotError Snapshot :=
  let (medium, pointer) := a.vault.medium.address r.id r.policy
  let s := r.snapshot now pointer
  match { a.vault with medium := medium }.persistAll r.id s.handles.entries with
  | (vault, events, some failure) => ({ a with vault := vault }, events, .error (.storage failure))
  | (vault, events, none) =>
    match { a with vault := vault }.add s with
    | (a, more, .error e) => (a, events ++ more, .error e)
    | (a, more, .ok _) => (a, events ++ more, .ok s)

/-- The rounds that a completed one makes pointless: the older ones that are not forced. -/
def overtaken (c : Coordinator) (id : Nat) : List Nat :=
  (c.rounds.entries.filter fun (i, r) => i < id && !r.policy.forced).map (·.1)

/-- Ends a round whose snapshot could not be stored; what was stored of it is thrown away. -/
def giveUp (c : Coordinator) (r : Round) (reason : SnapshotError) : Coordinator × List Event :=
  let (vault, event, _) := c.archive.vault.request (.cleanup r.id)
  let settlement := (r.abort? reason).map (·.2)
  let (budget, breach) := c.budget.failure reason
  ({ c with archive := { c.archive with vault := vault }, budget := budget },
    event :: ((settlement.map (settled r.id)).getD [] ++
      (r.expected.map fun run => .signal (.abort run r.id reason)) ++ breach))

/-- Turns a full round into a snapshot. -/
def complete (c : Coordinator) (r : Round) (now : Int) :
    Coordinator × List Event × Except SnapshotError AckResult :=
  let c := { c with rounds := c.rounds.erase r.id }
  match finalize c.archive r now with
  | (archive, events, .error reason) =>
    let (c, more) := { c with archive := archive }.giveUp r reason
    (c, events ++ more, .error reason)
  | (archive, events, .ok s) =>
    let c := { c with archive := archive }
    let settlement := (r.complete? s.info).map (·.2)
    let (c, aborts) := c.abortRounds (fun id => .subsumed id r.id) (c.overtaken r.id)
    ({ c with budget := c.budget.success },
      events ++ (settlement.map (settled r.id)).getD [] ++ aborts ++
        (r.expected.map fun run => .signal (.complete run r.id)),
      .ok .completes)

/-- Takes an acknowledgment; the last one owed completes the round. -/
def acknowledge (c : Coordinator) (id : Nat) (run : TaskRun) (state : Bytes) (now : Int) :
    Coordinator × List Event × Except SnapshotError AckResult :=
  match c.rounds.find? id with
  | none => (c, [], .ok .unknownTask)
  | some r =>
    match r.acknowledge run state with
    | (r, .completes) => c.complete r now
    | (r, result) => ({ c with rounds := c.rounds.insert id r }, [], .ok result)

/-! ### Reports from tasks and timers -/

/-- A participant declines a round, which is aborted.  Others cannot decline it. -/
def decline (c : Coordinator) (id : Nat) (run : TaskRun) (reason : String) :
    Coordinator × List Event × Bool :=
  if (c.rounds.find? id).any fun r => r.expects run then
    c.abortRound id (.declined id run reason)
  else (c, [], false)

/-- A run is in a new state.  Unless it is running, the rounds that wait for it are aborted. -/
def update (c : Coordinator) (run : TaskRun) (state : TaskState) : Coordinator × List Event :=
  let c := c.register run state
  if state.isRunning then (c, [])
  else
    let waiting := (c.rounds.entries.filter fun (_, r) => r.awaits run).map (·.1)
    c.abortRounds (fun id => .unreachable id run) waiting

/-- The time for a round is over. -/
def expire (c : Coordinator) (id : Nat) : Coordinator × List Event × Bool :=
  c.abortRound id (.expired id)

/-! ### Restoring, disposing, closing -/

/-- The snapshot to restore from, which is the latest.  If it is not claimed it counts as an
unclaimed snapshot from now on. -/
def restore (c : Coordinator) (mode : ClaimMode) :
    Coordinator × Except SnapshotError (Option Snapshot) :=
  match c.archive.latest? with
  | none => (c, .ok none)
  | some latest =>
    let nextId := max c.nextId (latest.id + 1)
    if mode = .claim ∨ latest.policy.unclaimed then
      ({ c with nextId := nextId }, .ok (some latest))
    else
      match c.archive.relabel latest.id .unclaimedSnapshot with
      | (archive, some s) => ({ c with archive := archive, nextId := nextId }, .ok (some s))
      | (archive, none) => ({ c with archive := archive }, .error (.notFound latest.id))

/-- Deletes a savepoint at the user's wish: unregisters it and throws its data away. -/
def dispose (c : Coordinator) (id : Nat) :
    Coordinator × List Event × Except SnapshotError Snapshot :=
  match c.archive.retention.find? id with
  | none => (c, [], .error (.notFound id))
  | some s =>
    if s.isSavepoint then
      match c.archive.remove id with
      | (archive, .error e) => ({ c with archive := archive }, [], .error e)
      | (archive, .ok _) =>
        match archive.vault.request (.cleanup id) with
        | (vault, event, failure) =>
          ({ c with archive := { archive with vault := vault } }, [event],
            match failure with
            | none => .ok s
            | some f => .error (.storage f))
    else (c, [], .error (.notSavepoint id))

/-- Ends the job: aborts all rounds, refuses later triggers and closes the archive.  Closing again
does nothing. -/
def close (c : Coordinator) (status : JobStatus) :
    Coordinator × List Event × Except SnapshotError Unit :=
  if c.closed then (c, [], .ok ())
  else
    let (c, aborts) := { c with closed := true }.abortRounds (fun id => .shutDown id) c.rounds.keys
    let (archive, events, result) := c.archive.close status
    ({ c with archive := archive }, aborts ++ events, result)

end Coordinator

/-! ### Requests -/

/-- What a coordinator can be asked to do. -/
inductive Request where
  | register (run : TaskRun) (state : TaskState)
  | trigger (policy : SnapshotPolicy) (now : Int)
  | acknowledge (id : Nat) (run : TaskRun) (state : Bytes) (now : Int)
  | decline (id : Nat) (run : TaskRun) (reason : String)
  | update (run : TaskRun) (state : TaskState)
  | expire (id : Nat)
  | restore (mode : ClaimMode)
  | dispose (id : Nat)
  | close (status : JobStatus)
deriving Repr

/-- What a coordinator answers. -/
inductive Reply where
  | done
  | triggered (id : Except SnapshotError Nat)
  | acknowledged (result : Except SnapshotError AckResult)
  | aborted (any : Bool)
  | restored (snapshot : Except SnapshotError (Option Snapshot))
  | disposed (snapshot : Except SnapshotError Snapshot)
  | closed (result : Except SnapshotError Unit)
deriving Repr

/-- Performs a request. -/
def Coordinator.step (c : Coordinator) :
    Request → Except Overflow (Coordinator × List Event × Reply)
  | .register run state => .ok (c.register run state, [], .done)
  | .trigger policy now =>
    (c.trigger policy now).map fun (c, events, id) => (c, events, .triggered id)
  | .acknowledge id run state now =>
    let (c, events, result) := c.acknowledge id run state now
    .ok (c, events, .acknowledged result)
  | .decline id run reason =>
    let (c, events, any) := c.decline id run reason
    .ok (c, events, .aborted any)
  | .update run state =>
    let (c, events) := c.update run state
    .ok (c, events, .done)
  | .expire id =>
    let (c, events, any) := c.expire id
    .ok (c, events, .aborted any)
  | .restore mode =>
    let (c, result) := c.restore mode
    .ok (c, [], .restored result)
  | .dispose id =>
    let (c, events, result) := c.dispose id
    .ok (c, events, .disposed result)
  | .close status =>
    let (c, events, result) := c.close status
    .ok (c, events, .closed result)

end Checkpointing

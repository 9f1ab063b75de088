import Checkpointing.Json.Forms
import Checkpointing.Recovery.Backoff
import Checkpointing.Simulation.Crew

/-!
# Simulated jobs

A job of parallel workers on a snapshot directory.  It restores the latest snapshot, runs until
enough checkpoints have completed, a failure ends it or its time is over, replaces workers that
failed as its restart plan allows, and reports what happened.  Time is counted in nanoseconds from
the start and passes only where something waits for it.

## Main definitions

* `JobPlan` describes a job, `JobReport` and `JobFault` what comes of it.
* `JobPlan.run` runs a job on a disk.
-/

namespace Checkpointing

/-- A simulated job. -/
structure JobPlan where
  /-- The path of the snapshot directory, as it is written. -/
  base : String
  parallelism : Nat
  /-- How many checkpoints have to complete. -/
  target : Nat
  /-- The pause from one record of a worker to the next. -/
  pace : Duration
  /-- The first subtask fails on the trigger of this number. -/
  failAfter : Option Nat
  /-- The last subtask declines the trigger of this number. -/
  declineAfter : Option Nat
  restart : RestartPlan
  maxRuntime : Duration
  settings : Settings
deriving Repr

/-- The instant at which the time of a job is over. -/
def JobPlan.deadline (p : JobPlan) : Nat := p.maxRuntime.wait

/-- What a job reports at its end. -/
structure JobReport where
  status : JobStatus
  restoredFrom : Option Nat
  /-- How many workers were replaced. -/
  restarts : Nat
  statistics : Statistics
  /-- The snapshots that were registered just before the end. -/
  completed : List SnapshotInfo
deriving Repr

/-- Why a job has nothing to report. -/
inductive JobFault where
  | invalidSettings (fault : SnapshotError)
  | storage (failure : StorageFailure)
  /-- A worker broke down. -/
  | brokenDown
  /-- The coordinator ran out of ids, and does not answer any more. -/
  | exhausted
  /-- There is no id left for a first checkpoint. -/
  | overflow (operation : Overflow)
deriving Repr

/-- What was being attempted, outermost first, down to the cause. -/
def JobFault.chain : JobFault → List String
  | invalidSettings fault => ["invalid coordinator configuration", fault.message]
  | storage failure => failure.chain
  | brokenDown => ["simulated task panicked"]
  | exhausted => [SnapshotError.message .serviceStopped]
  | overflow _ => []

/-- The job as an object. -/
def JobReport.json (r : JobReport) : Json :=
  .object [("job_status", .text r.status.name), ("restored_from", .ofOption .nat r.restoredFrom),
    ("restarts", .nat r.restarts), ("stats", r.statistics.json),
    ("completed", .array (r.completed.map SnapshotInfo.json))]

/-- A job at work. -/
structure Job where
  plan : JobPlan
  timeline : Timeline
  crew : Crew
  backoff : Backoff
  /-- The coordinator wants the job to fail. -/
  failing : Bool
  /-- The next instant at which the job looks whether enough checkpoints have completed. -/
  nextCheck : Nat

namespace Job

/-- The disk as the job has left it so far. -/
def disk (j : Job) : Disk :=
  (j.timeline.service.coordinator.archive.vault.medium.disk?).getD ∅

/-- The current instant. -/
def clock (j : Job) : Nat := j.timeline.clock

/-- How many checkpoints have completed. -/
def completed (j : Job) : Nat := j.timeline.service.monitored.statistics.completed

/-- Whether enough checkpoints have completed. -/
def isDone (j : Job) : Bool := j.plan.target ≤ j.completed

/-! ### Talking to the coordinator -/

/-- The event with which a coordinator fails its job. -/
def isFailure : Event → Bool
  | .failJob .. => true
  | _ => false

/-- What a job can do; where it cannot go on it leaves a disk. -/
abbrev Attempt (α : Type) := Except (Disk × JobFault) α

/-- Takes over what came of an exchange at an instant.  A coordinator that runs out of ids stops,
and the workers go on without it. -/
def absorb (j : Job) (clock : Nat) (e : Except Overflow (Exchange Crew)) :
    Job × List (Option Answer) :=
  match e with
  | .error _ =>
    ({ j with timeline := { j.timeline with service := j.timeline.service.stop, clock := clock } },
      [])
  | .ok e =>
    ({ j with
      timeline := e.timeline
      crew := e.tasks
      failing := j.failing || e.events.any isFailure }, e.answers)

/-- Sends messages. -/
def talk (j : Job) (ms : List Message) : Job × List (Option Answer) :=
  j.absorb j.clock (j.timeline.exchange Crew.react j.crew ms)

/-- Asks for the latest snapshot. -/
def restore (j : Job) (mode : ClaimMode) : Attempt (Job × Option Snapshot) :=
  let (j, answers) := j.talk [.restore mode]
  match answers with
  | [some (.reply (.restored (.ok s)))] => .ok (j, s)
  | _ => .error (j.disk, .exhausted)

/-! ### Workers -/

/-- The count that a subtask is restored with. -/
def restoredCount (s : Option Snapshot) (subtask : Nat) : Nat :=
  (s.map fun s => s.recordsOf subtask).getD 0

/-- Starts a worker now, from what a snapshot holds of its subtask. -/
def deploy (j : Job) (run : TaskRun) (s : Option Snapshot) (plan : FailurePlan) : Job :=
  let w : Worker := ⟨run, restoredCount s run.subtask, j.clock, plan⟩
  (talk { j with crew := j.crew.hire w } [.update run .deploying, .update run .running]).1

/-- Starts the first worker of each of the given subtasks. -/
def deployAll (j : Job) (s : Option Snapshot) (subtasks : List Nat) : Job :=
  subtasks.foldl (fun j subtask =>
    j.deploy ⟨simulatedVertex, subtask, 0⟩ s
      (.injected j.plan.parallelism j.plan.failAfter j.plan.declineAfter subtask)) j

/-! ### Time -/

/-- The pause between two looks at the completed checkpoints. -/
def checkPause : Duration := .ofMillis 20

/-- The first look after an instant. -/
def checkAfter (clock : Nat) : Nat := (clock / checkPause + 1) * checkPause

/-- Moves the clock on. -/
def waitUntil (j : Job) (instant : Nat) : Job :=
  { j with timeline := { j.timeline with clock := max instant j.clock } }

/-- Moves on to an instant and does what is due there. -/
def fire (j : Job) (instant : Nat) : Job :=
  let clock := max instant j.clock
  (j.absorb clock (j.timeline.fire Crew.react j.crew clock)).1

/-- Waits until an instant, while the coordinator goes on at most `fuel` times. -/
def sleepFor (j : Job) (limit : Nat) : Nat → Job
  | 0 => j.waitUntil limit
  | fuel + 1 =>
    match j.timeline.due? with
    | none => j.waitUntil limit
    | some t => if t ≤ limit then (j.fire t).sleepFor limit fuel else j.waitUntil limit

/-- Waits for a while. -/
def sleep (j : Job) (time : Duration) : Job :=
  let target := j.clock + time.wait
  j.sleepFor target (j.timeline.instants target)

/-- Replaces a worker that failed: waits for the delay, and then starts the next run of its subtask
from the latest snapshot.  Snapshots of this job are its own, so they are claimed. -/
def replace (j : Job) (w : Worker) (delay : Duration) : Attempt Job :=
  ((j.sleep delay).restore .claim).bind fun (j, s) =>
    match w.run.next? with
    | .error operation => .error (j.disk, .overflow operation)
    | .ok run => .ok (j.deploy run s w.plan)

/-! ### Running -/

/-- How the job ends now, if it does: it fails if the coordinator wants it to, it is canceled when
its time is over, and it finishes when it sees that enough checkpoints have completed. -/
def verdict? (j : Job) : Option JobStatus :=
  if j.failing then some .failed
  else if j.plan.deadline ≤ j.clock then some .canceled
  else if j.isDone && j.nextCheck ≤ j.clock then some .finished
  else none

/-- The next instant at which anything happens. -/
def nextInstant (j : Job) : Nat :=
  let other := [j.timeline.due?, j.crew.nextBreakdown?,
    if j.isDone then some j.nextCheck else none].filterMap id
  other.foldl min j.plan.deadline

/-- Moves on to the next instant and does what is due there.  A look at that instant comes before
everything else, so what completes there is seen by the next look only. -/
def advance (j : Job) : Job :=
  let instant := j.nextInstant
  let j := if j.isDone then j else { j with nextCheck := checkAfter instant }
  match j.timeline.due? with
  | some t => if t ≤ instant then j.fire instant else j.waitUntil instant
  | none => j.waitUntil instant

/-- Runs the job to its end, in at most `fuel` steps. -/
def proceed (j : Job) : Nat → Attempt (Job × JobStatus)
  | 0 => .ok (j, .canceled)
  | fuel + 1 =>
    if j.crew.isBroken j.clock then .error (j.disk, .brokenDown)
    else
      match j.crew.fallen, j.failing with
      | w :: rest, false =>
        match j.backoff.next? with
        | none => .ok (j, .failed)
        | some (delay, backoff) =>
          ({ j with backoff := backoff, crew := { j.crew with fallen := rest } }.replace w
            delay).bind fun j => j.proceed fuel
      | _, _ =>
        match j.verdict? with
        | some status => .ok (j, status)
        | none => j.advance.proceed fuel

/-- Ends the job: the workers finish, and the coordinator is shut down after its last answers. -/
def conclude (j : Job) (status : JobStatus) (restoredFrom : Option Nat) :
    Attempt (Disk × JobReport) :=
  let (j, _) := j.talk (j.crew.working.map fun w => .update w.run .finished)
  let (j, answers) := j.talk [.listCompleted]
  match answers with
  | [some (.completed infos)] =>
    let report : JobReport := {
      status := status
      restoredFrom := restoredFrom
      restarts := j.backoff.attempts
      statistics := j.timeline.service.monitored.statistics
      completed := infos }
    let (j, _) := j.talk [.shutdown status]
    .ok (j.disk, report)
  | _ => .error (j.disk, .exhausted)

end Job

namespace JobPlan

/-- The job at its start, before it restores anything. -/
def start (p : JobPlan) (c : Coordinator) : Job where
  plan := p
  timeline := .start c true
  crew := .empty p.pace.wait
  backoff := .fresh p.restart
  failing := false
  nextCheck := 0

/-- Opens the directory of a job. -/
def openArchive (p : JobPlan) (disk : Disk) : Job.Attempt Archive :=
  match p.settings.validate with
  | .error e => .error (disk, .invalidSettings e)
  | .ok () =>
    match Archive.openDirectory p.base p.settings.maxRetained disk with
    | .error (disk, f) => .error (disk, .storage f)
    | .ok archive => .ok archive

/-- An upper bound for the number of steps of a job. -/
def steps (p : JobPlan) (j : Job) : Nat := j.timeline.instants p.deadline + 2 * p.parallelism + 4

/-- Runs a job after its directory was opened. -/
def runOn (p : JobPlan) (archive : Archive) : Job.Attempt (Disk × JobReport) :=
  match Coordinator.open? p.settings archive true with
  | .error operation =>
    .error ((archive.vault.medium.disk?).getD ∅, .overflow operation)
  | .ok c =>
    ((p.start c).restore p.settings.claimMode).bind fun (j, s) =>
      let j := j.deployAll s (List.range p.parallelism)
      (j.proceed (p.steps j)).bind fun (j, status) => j.conclude status (s.map (·.id))

/-- Runs a job on a disk. -/
def run (p : JobPlan) (disk : Disk) : Disk × Except JobFault JobReport :=
  match (p.openArchive disk).bind p.runOn with
  | .error (disk, fault) => (disk, .error fault)
  | .ok (disk, report) => (disk, .ok report)

end JobPlan

end Checkpointing

import Checkpointing.CommandLine.Command
import Checkpointing.Simulation.Job

/-!
# The program

What the program does with its arguments on a disk: it prints, changes the disk and ends with a
code.

## Main definitions

* `ProgramEnd` is how a run of the program ends.
* `Program.execute` carries out a command, `Program.run` reads and carries out one.
-/

namespace Checkpointing

/-- How a run of the program ends. -/
structure ProgramEnd where
  code : Nat
  output : String
  /-- What is printed about a failure. -/
  complaint : String
  disk : Disk

namespace ProgramEnd

/-- The code after a failure. -/
def failureCode : Nat := 1

/-- The code after arguments that are not understood. -/
def misuseCode : Nat := 2

/-- The code after a count that left its word. -/
def overflowCode : Nat := 101

/-- A list of lines, each ended by a line break. -/
def lines (l : List String) : String := String.join (l.map fun s => s ++ "\n")

/-- The causes of a failure as they are printed; several are numbered. -/
def causes (l : List String) : List String :=
  match l with
  | [cause] => [s!"    {cause}"]
  | _ => l.zipIdx.map fun (cause, i) => "".pushn ' ' (5 - (toString i).length) ++ s!"{i}: {cause}"

/-- A chain of failures as it is printed. -/
def complain (chain : List String) : String :=
  let inner := chain.drop 1
  let outer := chain.headD ""
  lines (s!"Error: {outer}" ::
    if inner.isEmpty then [] else "" :: "Caused by:" :: causes inner)

/-- The program has done its work. -/
def success (output : String) (disk : Disk) : ProgramEnd := ⟨0, output, "", disk⟩

/-- The program has failed. -/
def failure (chain : List String) (disk : Disk) : ProgramEnd :=
  ⟨failureCode, "", complain chain, disk⟩

/-- The program has met a count that left its word, after some output. -/
def overflow (output : String) (disk : Disk) : ProgramEnd := ⟨overflowCode, output, "", disk⟩

end ProgramEnd

/-! ### Simulated jobs -/

/-- The fault of a text that is not a configuration, in words. -/
def ReadFault.text : ReadFault → String
  | endOfInput => "unexpected end of input"
  | malformed => "malformed text"
  | mismatched => "unexpected value"

/-- Reads the configuration from a file, or takes one with a checkpoint every 200 milliseconds. -/
def Settings.load (disk : Disk) : Option String → Except StorageFailure Settings
  | none => .ok { Settings.default with interval := .ofMillis 200 }
  | some file =>
    let unread (cause : String) :=
      (StorageFailure.of cause).within s!"read config {file} failed"
    match (disk.locate file).bind fun l => disk.readFile l.path with
    | .error e => .error (unread e.text)
    | .ok bytes =>
      match String.fromUTF8? bytes.toByteArray with
      | none => .error (unread "stream did not contain valid UTF-8")
      | some text =>
        match Reader.run Reader.settings text with
        | .error fault =>
          .error ((StorageFailure.of fault.text).within s!"parse config {file} failed")
        | .ok s => .ok s

namespace SimulateOptions

/-- The settings with what the options say in place of the configuration. -/
def apply (o : SimulateOptions) (s : Settings) : Settings :=
  let s := { s with
    interval := (o.intervalMillis.map .ofMillis).getD s.interval
    timeout := (o.timeoutMillis.map .ofMillis).getD s.timeout
    tolerableFailures := o.tolerableFailures <|> s.tolerableFailures
    retention := o.retention.getD s.retention
    claimMode := o.claimMode.getD s.claimMode }
  let s := (o.maxConcurrent.map s.withMaxConcurrent).getD s
  (o.retained.map s.withMaxRetained).getD s

/-- The job that the options describe. -/
def plan (o : SimulateOptions) (s : Settings) : JobPlan where
  base := o.dir
  parallelism := o.parallelism
  target := o.checkpoints
  pace := .ofMillis (max o.paceMillis 1)
  failAfter := o.failAfter
  declineAfter := o.declineAfter
  restart := .fixed o.restartAttempts (.ofMillis o.restartDelayMillis)
  maxRuntime := .ofMillis o.maxRuntimeMillis
  settings := o.apply s

end SimulateOptions

/-- A job's report as lines of text. -/
def JobReport.summary (r : JobReport) : List String :=
  let s := r.statistics
  [s!"Job finished with status {r.status.text}"] ++
    (r.restoredFrom.map fun id => s!"  restored from: {id}").toList ++
    [s!"  restarts:      {r.restarts}",
      s!"  checkpoints:   {s.triggered} triggered, {s.completed} completed, {s.aborted} aborted"] ++
    (s.latestFailure.map fun reason => s!"  last failure:  {reason}").toList ++
    r.completed.map fun i => s!"  retained chk-{i.id} ({i.policy.text}, {i.tasks} tasks)"

/-- A snapshot in one line. -/
def Snapshot.line (s : Snapshot) : Except Overflow String :=
  s.duration?.map fun duration =>
    s!"chk-{s.id}: {s.policy.text} | {s.handles.size} tasks | {duration} ms" ++
      (s.pointer.map fun p => s!" | {p}").getD ""

namespace Program

open ProgramEnd

/-! ### Carrying out -/

/-- Runs a simulated job. -/
def simulate (o : SimulateOptions) (disk : Disk) : ProgramEnd :=
  if o.parallelism = 0 then .failure ["parallelism must be at least 1"] disk
  else
    match Settings.load disk o.config with
    | .error f => .failure f.chain disk
    | .ok s =>
      match (o.plan s).run disk with
      | (disk, .error (.overflow _)) => .overflow "" disk
      | (disk, .error fault) => .failure fault.chain disk
      | (disk, .ok report) =>
        .success (lines (if o.json then [report.json.pretty] else report.summary)) disk

/-- Prints snapshots line by line, up to one whose duration leaves its word. -/
def printSnapshots (disk : Disk) (printed : List String) : List Snapshot → ProgramEnd
  | [] => .success (lines printed) disk
  | s :: rest =>
    match s.line with
    | .error _ => .overflow (lines printed) disk
    | .ok line => printSnapshots disk (printed ++ [line]) rest

/-- Lists the snapshots in a directory. -/
def inspect (dir : String) (json : Bool) (disk : Disk) : ProgramEnd :=
  match Directory.readWritten disk dir with
  | .error f => .failure f.chain disk
  | .ok found =>
    if json then .success (lines [(Json.array (found.map fun s => s.info.json)).pretty]) disk
    else if found.isEmpty then .success (lines [s!"No completed checkpoints in {dir}"]) disk
    else printSnapshots disk [] found

/-- Disposes of a savepoint. -/
def dispose (dir : String) (id : Nat) (disk : Disk) : ProgramEnd :=
  match Archive.openDirectory dir Settings.default.maxRetained disk with
  | .error (disk, f) => .failure f.chain disk
  | .ok archive =>
    match Coordinator.open? .default archive false with
    | .error _ => .overflow "" ((archive.vault.medium.disk?).getD disk)
    | .ok c =>
      let (c, _, result) := c.dispose id
      let disk := (c.archive.vault.medium.disk?).getD disk
      match result with
      | .error e => .failure [e.message] disk
      | .ok s =>
        let pointer := s.pointer.getD "no external pointer"
        .success (lines [s!"Disposed savepoint {s.id} ({pointer})"]) disk

/-- Carries out a command. -/
def execute (disk : Disk) : Command → ProgramEnd
  | .simulate options => simulate options disk
  | .inspect dir json => inspect dir json disk
  | .dispose dir id => dispose dir id disk

/-- What the program does with its arguments. -/
def run (arguments : List String) (disk : Disk) : ProgramEnd :=
  match Command.parse? arguments with
  | none => ⟨misuseCode, "", "", disk⟩
  | some command => execute disk command

end Program

end Checkpointing

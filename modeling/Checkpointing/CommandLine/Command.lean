import Checkpointing.CommandLine.Arguments
import Checkpointing.Policy

/-!
# Commands

The three commands of the command line: run a simulated job, list the snapshots in a directory, and
dispose of a savepoint.
-/

namespace Checkpointing

/-- The options of a simulated job.  What is absent is left as the configuration says. -/
structure SimulateOptions where
  /-- The path of the snapshot directory, as it is written. -/
  dir : String
  /-- The path of the configuration's file. -/
  config : Option String
  parallelism : Nat
  /-- How many checkpoints have to complete. -/
  checkpoints : Nat
  intervalMillis : Option Nat
  timeoutMillis : Option Nat
  maxConcurrent : Option Nat
  retained : Option Nat
  tolerableFailures : Option Nat
  retention : Option RetentionMode
  claimMode : Option ClaimMode
  failAfter : Option Nat
  declineAfter : Option Nat
  restartAttempts : Nat
  restartDelayMillis : Nat
  paceMillis : Nat
  maxRuntimeMillis : Nat
  /-- The report is written as JSON. -/
  json : Bool
deriving Repr

/-- A command. -/
inductive Command where
  | simulate (options : SimulateOptions)
  | inspect (dir : String) (json : Bool)
  | dispose (dir : String) (id : Nat)
deriving Repr

namespace Command

open Arguments

/-- The directory of snapshots if none is given. -/
def defaultDir : String := "./checkpoints"

/-- The options of a simulated job. -/
def simulateNames : List String :=
  ["dir", "config", "parallelism", "checkpoints", "interval-ms", "timeout-ms", "max-concurrent",
    "retained", "tolerable-failures", "retention-policy", "claim-mode", "fail-after",
    "decline-after", "restart-attempts", "restart-delay-ms", "record-interval-ms",
    "max-runtime-ms"]

/-- Reads the options of a simulated job. -/
def simulateOptions? (a : Arguments) : Option SimulateOptions := do
  return {
    dir := ← a.getD? "dir" defaultDir path?
    config := ← a.get? "config" path?
    parallelism := ← a.getD? "parallelism" 4 count64?
    checkpoints := ← a.getD? "checkpoints" 5 count64?
    intervalMillis := ← a.get? "interval-ms" count64?
    timeoutMillis := ← a.get? "timeout-ms" count64?
    maxConcurrent := ← a.get? "max-concurrent" count64?
    retained := ← a.get? "retained" count64?
    tolerableFailures := ← a.get? "tolerable-failures" count32?
    retention := ← a.get? "retention-policy" (name? RetentionMode.parse)
    claimMode := ← a.get? "claim-mode" (name? ClaimMode.parse)
    failAfter := ← a.get? "fail-after" count32?
    declineAfter := ← a.get? "decline-after" count32?
    restartAttempts := ← a.getD? "restart-attempts" 3 count32?
    restartDelayMillis := ← a.getD? "restart-delay-ms" 100 count64?
    paceMillis := ← a.getD? "record-interval-ms" 10 count64?
    maxRuntimeMillis := ← a.getD? "max-runtime-ms" 30000 count64?
    json := a.has "json" }

/-- Reads a command with its arguments. -/
def parse? : List String → Option Command
  | "simulate" :: rest => do
    return .simulate (← simulateOptions? (← read? simulateNames ["json"] rest))
  | "inspect" :: rest => do
    let a ← read? ["dir"] ["json"] rest
    return .inspect (← a.getD? "dir" defaultDir path?) (a.has "json")
  | "dispose-savepoint" :: rest => do
    let a ← read? ["dir", "id"] [] rest
    return .dispose (← a.getD? "dir" defaultDir path?) (← a.require? "id" count64?)
  | _ => none

end Command

end Checkpointing

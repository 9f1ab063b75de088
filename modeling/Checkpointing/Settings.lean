import Checkpointing.Policy

/-!
# Settings

The settings of a job's checkpoints.  Durations are exact, in nanoseconds; where a whole number of
milliseconds is wanted they are rounded down, and the written form holds at most the greatest 64-bit
count of them.  Nothing waits for longer than thirty years at a time.

## Main definitions

* `Duration.wait` is how long a wait lasts.
* `Settings`, with the defaults of its fields as `Settings.default`.
* `Settings.validate` finds the first fault.
-/

namespace Checkpointing

/-- Durations in nanoseconds. -/
abbrev Duration := Nat

namespace Duration

/-- A duration of whole milliseconds. -/
def ofMillis (n : Nat) : Duration := n * 1000000

/-- A duration of whole microseconds. -/
def ofMicros (n : Nat) : Duration := n * 1000

/-- A duration of whole seconds. -/
def ofSeconds (n : Nat) : Duration := n * 1000000000

/-- The whole milliseconds in a duration. -/
def millis (d : Duration) : Nat := d / 1000000

/-- The milliseconds that the written form shows. -/
def writtenMillis (d : Duration) : Nat := min d.millis Word.max64

/-- The longest wait: thirty years of 365 days. -/
def longestWait : Duration := ofSeconds (30 * 365 * 86400)

/-- How long a wait for a duration lasts. -/
def wait (d : Duration) : Duration := min d longestWait

@[simp]
theorem millis_ofMillis (n : Nat) : (ofMillis n).millis = n := by
  simp [millis, ofMillis]

theorem wait_of_le {d : Duration} (h : d ≤ longestWait) : d.wait = d := Nat.min_eq_left h

end Duration

/-- When checkpoints of a job are taken, how many may be under way, and which are kept. -/
structure Settings where
  interval : Duration
  timeout : Duration
  /-- The least pause between the starts of two checkpoints that are not forced. -/
  minPause : Duration
  maxConcurrent : Nat
  maxRetained : Nat
  /-- How many failures in a row the job survives; any number if absent. -/
  tolerableFailures : Option Nat
  retention : RetentionMode
  claimMode : ClaimMode
deriving Repr, DecidableEq

namespace Settings

/-- Ten seconds between checkpoints, ten minutes for each, one at a time and three kept. -/
def default : Settings where
  interval := .ofSeconds 10
  timeout := .ofSeconds 600
  minPause := 0
  maxConcurrent := 1
  maxRetained := 3
  tolerableFailures := none
  retention := .neverAfterTermination
  claimMode := .claim

instance : Inhabited Settings := ⟨default⟩

/-- Lets `n` checkpoints be under way at once; at least one. -/
def withMaxConcurrent (s : Settings) (n : Nat) : Settings := { s with maxConcurrent := max n 1 }

/-- Keeps `n` checkpoints; at least one. -/
def withMaxRetained (s : Settings) (n : Nat) : Settings := { s with maxRetained := max n 1 }

/-- The policy of the job's periodic checkpoints. -/
def periodicPolicy (s : Settings) : SnapshotPolicy := .ofRetention s.retention

/-- The least pause between two triggers as the signed count of milliseconds that differences of
timestamps are compared with. -/
def pauseMillis (s : Settings) : Int := Word.toSigned s.minPause.millis

/-- Reports the first fault: an interval or a timeout of zero, or no room for any checkpoint. -/
def validate (s : Settings) : Except SnapshotError Unit :=
  if s.interval = 0 then .error (.invalidSettings .zeroInterval)
  else if s.timeout = 0 then .error (.invalidSettings .zeroTimeout)
  else if s.maxConcurrent = 0 then .error (.invalidSettings .noConcurrency)
  else if s.maxRetained = 0 then .error (.invalidSettings .noRetention)
  else .ok ()

end Settings

end Checkpointing

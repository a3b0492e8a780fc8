import Crossbook.Histogram.Optimism
import Crossbook.Lib.OneServer
import Crossbook.Replay.Replay

set_option autoImplicit false

namespace Crossbook

namespace Replay

/-- A computation in time, over the instants it comes to one after the other: what the clock shows
whenever it is read, and when each call of the handler returns. There is no result when the instants
end first. -/
abbrev Clocked (α : Type) := StateT (List UInt64) Option α

def nowNs : Clocked UInt64
  | [] => none
  | now :: later => some (now, later)

-- Sleeping only makes the next reading later.
def waitUntil (targetNs : UInt64) : Clocked Unit
  | [] => none
  | now :: later => if targetNs ≤ now then some ((), later) else waitUntil targetNs later

structure LatencyReport where
  count : UInt64
  min : UInt64
  p50 : UInt64
  p90 : UInt64
  p99 : UInt64
  p999 : UInt64
  p9999 : UInt64
  max : UInt64
  deriving DecidableEq, Repr

def summarise (h : Histogram) : LatencyReport where
  count := h.count
  min := h.min
  p50 := h.percentileAt 50
  p90 := h.percentileAt 90
  p99 := h.percentileAt 99
  p999 := h.percentileAt (999 / 10)
  p9999 := h.percentileAt (9999 / 100)
  max := h.max

structure ReplayOptions where
  /-- The time from the first event, compressed by the speed, as the conversions to and from
  floating point leave it. -/
  offset : Timestamp → UInt64
  warmupEvents : Nat
  recordFallingBehind : Bool

structure ReplayResult where
  latency : LatencyReport
  events : UInt64
  skipped : UInt64
  behindSchedule : UInt64
  maxLateness : UInt64
  wallNs : UInt64
  deriving DecidableEq, Repr

def ReplayResult.keptPace (result : ReplayResult) : Bool := result.behindSchedule == 0

def ReplayResult.start : ReplayResult := ⟨⟨0, 0, 0, 0, 0, 0, 0, 0⟩, 0, 0, 0, 0, 0⟩

/-- Overshoot below this is not lateness. -/
def kDeadlineToleranceNs : UInt64 := 1000

def kScheduleLeadNs : UInt64 := 1000000

/-- A replay under way: the state its handler works on, and what has been measured. -/
structure OpenLoop (σ : Type) where
  handled : σ
  histogram : Histogram
  result : ReplayResult

variable {σ : Type}

namespace OpenLoop

def late (run : OpenLoop σ) (lateness : UInt64) : OpenLoop σ :=
  if lateness > kDeadlineToleranceNs then
    { run with
      result := { run.result with
        behindSchedule := run.result.behindSchedule + 1
        maxLateness :=
          if lateness > run.result.maxLateness then lateness else run.result.maxLateness } }
  else run

def handle (run : OpenLoop σ) (handler : σ → ReplayEvent → σ) (event : ReplayEvent) : OpenLoop σ :=
  { run with handled := handler run.handled event }

-- The handler returns at the next instant.
def work (run : OpenLoop σ) (handler : σ → ReplayEvent → σ) (event : ReplayEvent) :
    Clocked (OpenLoop σ)
  | [] => none
  | _ :: later => some (run.handle handler event, later)

def skip (run : OpenLoop σ) : OpenLoop σ :=
  { run with result := { run.result with skipped := run.result.skipped + 1 } }

def measure (run : OpenLoop σ) (latency : UInt64) : OpenLoop σ :=
  { run with
    histogram := run.histogram.record latency
    result := { run.result with events := run.result.events + 1 } }

end OpenLoop

section Loop

variable (handler : σ → ReplayEvent → σ) (options : ReplayOptions)

def pace (scheduled : UInt64) (i : Nat) (run : OpenLoop σ) : Clocked (OpenLoop σ) := do
  let beforeWait ← nowNs
  if beforeWait < scheduled then
    waitUntil scheduled
    return run
  else if options.recordFallingBehind && decide (options.warmupEvents ≤ i) then
    return run.late (beforeWait - scheduled)
  else return run

def replayEvent (scheduled : UInt64) (i : Nat) (event : ReplayEvent) (run : OpenLoop σ) :
    Clocked (OpenLoop σ) := do
  let paced ← pace options scheduled i run
  let handled ← paced.work handler event
  if i < options.warmupEvents then return handled.skip
  else
    let completed ← nowNs
    return handled.measure (if completed > scheduled then completed - scheduled else 0)

def replayEvents (schedule : ReplayEvent → UInt64) :
    Nat → List ReplayEvent → OpenLoop σ → Clocked (OpenLoop σ)
  | _, [], run => return run
  | i, event :: rest, run => do
    let next ← replayEvent handler options (schedule event) i event run
    replayEvents schedule (i + 1) rest next

def scheduledAt (wallStart : UInt64) (epoch : Timestamp) (event : ReplayEvent) : UInt64 :=
  wallStart + options.offset (event.tsRecv - epoch)

def replayOpenLoop (events : List ReplayEvent) (state : σ) : Clocked (ReplayResult × σ) :=
  match events with
  | [] => return (.start, state)
  | front :: _ => do
    let now ← nowNs
    let wallStart := now + kScheduleLeadNs
    let run ← replayEvents handler options (scheduledAt options wallStart front.tsRecv) 0 events
      ⟨state, .create 3600000000000 3, .start⟩
    let done ← nowNs
    return ({ run.result with wallNs := done - wallStart, latency := summarise run.histogram },
      run.handled)

end Loop

end Replay

end Crossbook

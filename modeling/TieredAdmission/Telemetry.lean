import TieredAdmission.Tier.PerTier
import TieredAdmission.Time.Duration

/-!
# Telemetry

The counters, gauges and histograms that the admission core keeps for a metrics collector. A gauge
holds its last value, a histogram every value in recording order. `Telemetry.dump` lists the series
that have been recorded, each with its labels in alphabetical order.
-/

namespace TieredAdmission

inductive BreakerState where
  | closed
  | opened
  | halfOpen
deriving DecidableEq, Repr

namespace BreakerState

def name : BreakerState → String
  | closed => "CLOSED"
  | opened => "OPEN"
  | halfOpen => "HALF_OPEN"

def ofName? (s : String) : Option BreakerState :=
  [closed, opened, halfOpen].find? fun b => b.name == s

/-- The value that a gauge shows for a state. -/
def level : BreakerState → Float
  | closed => 0.0
  | halfOpen => 1.0
  | opened => 2.0

end BreakerState

/-- How a request reached the backend. -/
inductive DispatchPath where
  /-- Slots were free at submission, so it was never queued. -/
  | immediate
  /-- It waited in the scheduler first. -/
  | queued
deriving DecidableEq, Repr

namespace DispatchPath

def name : DispatchPath → String
  | immediate => "immediate"
  | queued => "queued"

def ofName? (s : String) : Option DispatchPath := [immediate, queued].find? fun p => p.name == s

end DispatchPath

inductive RejectionReason where
  | circuitBreaker
  | shuttingDown
  | duplicate
  | other
deriving DecidableEq, Repr

def RejectionReason.name : RejectionReason → String
  | circuitBreaker => "circuit_breaker"
  | shuttingDown => "shutting_down"
  | duplicate => "duplicate"
  | other => "other"

def RejectionReason.all : List RejectionReason := [circuitBreaker, shuttingDown, duplicate, other]

/-- What is measured: a name and its labels. -/
inductive Metric where
  | admissions (t : Tier) (path : DispatchPath)
  | rejections (t : Tier) (reason : RejectionReason)
  | completions (t : Tier) (success : Bool)
  | queueWait (t : Tier)
  | backendLatency (t : Tier)
  | queueDepth (t : Tier)
  | maxConcurrent
  | breakerState

namespace Metric

def all : List Metric :=
  (Tier.all.flatMap fun t =>
    [admissions t .immediate, admissions t .queued] ++ RejectionReason.all.map (rejections t) ++
      [completions t true, completions t false, queueWait t, backendLatency t, queueDepth t]) ++
    [maxConcurrent, breakerState]

/-- The full name of a series: its name and its labels in alphabetical order. -/
def fullName (name : String) (labels : List (String × String)) : String :=
  "tiergate_" ++ name ++
    "\x7b" ++ ",".intercalate (labels.map fun (k, v) => k ++ "=" ++ v) ++ "\x7d"

def name : Metric → String
  | admissions t p => fullName "admissions_total" [("path", p.name), ("tier", t.name)]
  | rejections t r => fullName "rejections_total" [("reason", r.name), ("tier", t.name)]
  | completions t success =>
    fullName "completions_total"
      [("outcome", if success then "success" else "failure"), ("tier", t.name)]
  | queueWait t => fullName "queue_wait_seconds" [("tier", t.name)]
  | backendLatency t => fullName "backend_latency_seconds" [("tier", t.name)]
  | queueDepth t => fullName "queue_depth" [("tier", t.name)]
  | maxConcurrent => fullName "max_concurrent" []
  | breakerState => fullName "breaker_state" []

end Metric

/-- What has been recorded so far. -/
structure Telemetry where
  /-- Admissions of a tier on the immediate path and on the queued one. -/
  immediate : PerTier Nat := .const 0
  queued : PerTier Nat := .const 0
  /-- Rejections of a tier, newest first. -/
  rejections : List (Tier × RejectionReason) := []
  successes : PerTier Nat := .const 0
  failures : PerTier Nat := .const 0
  /-- Histograms, newest value first. -/
  queueWait : PerTier (List Duration) := .const []
  backendLatency : PerTier (List Duration) := .const []
  queueDepth : PerTier (Option Nat) := .const none
  maxConcurrent : Option Nat := none
  breaker : Option BreakerState := none

namespace Telemetry

def recordAdmission (m : Telemetry) (t : Tier) : DispatchPath → Telemetry
  | .immediate => { m with immediate := m.immediate.increment t }
  | .queued => { m with queued := m.queued.increment t }

def recordRejection (m : Telemetry) (t : Tier) (r : RejectionReason) : Telemetry :=
  { m with rejections := (t, r) :: m.rejections }

def recordCompletion (m : Telemetry) (t : Tier) (success : Bool) (waited : Duration) : Telemetry :=
  let m := if success then { m with successes := m.successes.increment t }
    else { m with failures := m.failures.increment t }
  { m with queueWait := m.queueWait.modify t (waited :: ·) }

def recordLatency (m : Telemetry) (t : Tier) (latency : Duration) : Telemetry :=
  { m with backendLatency := m.backendLatency.modify t (latency :: ·) }

def recordQueueDepth (m : Telemetry) (t : Tier) (depth : Nat) : Telemetry :=
  { m with queueDepth := m.queueDepth.set t (some depth) }

def recordMaxConcurrent (m : Telemetry) (level : Nat) : Telemetry :=
  { m with maxConcurrent := some level }

def recordBreaker (m : Telemetry) (b : BreakerState) : Telemetry := { m with breaker := some b }

def rejectionCount (m : Telemetry) (t : Tier) (r : RejectionReason) : Nat :=
  m.rejections.count (t, r)

inductive Series where
  | counter (n : Nat)
  | gauge (x : Float)
  | histogram (xs : List Float)

/-- A counter, unless it was never raised. -/
def counter? (n : Nat) : Option Series := if n = 0 then none else some (.counter n)

/-- A histogram of durations in seconds, unless it is empty. -/
def histogram? (newestFirst : List Duration) : Option Series :=
  if newestFirst.isEmpty then none
  else some (.histogram (newestFirst.reverse.map Duration.toSeconds))

def gauge? (n : Option Nat) : Option Series := n.map fun n => .gauge n.toUInt64.toFloat

def shown (m : Telemetry) : Metric → Option Series
  | .admissions t .immediate => counter? (m.immediate.get t)
  | .admissions t .queued => counter? (m.queued.get t)
  | .rejections t r => counter? (m.rejectionCount t r)
  | .completions t success => counter? ((if success then m.successes else m.failures).get t)
  | .queueWait t => histogram? (m.queueWait.get t)
  | .backendLatency t => histogram? (m.backendLatency.get t)
  | .queueDepth t => gauge? (m.queueDepth.get t)
  | .maxConcurrent => gauge? m.maxConcurrent
  | .breakerState => m.breaker.map fun b => .gauge b.level

def dump (m : Telemetry) : List (String × Series) :=
  Metric.all.filterMap fun k => (m.shown k).map fun s => (k.name, s)

end Telemetry

end TieredAdmission

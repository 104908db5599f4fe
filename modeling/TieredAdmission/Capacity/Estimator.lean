import TieredAdmission.Time.Instant
import TieredAdmission.Capacity.Budget
import TieredAdmission.Capacity.Config
import TieredAdmission.Telemetry

/-!
# The capacity estimator

Two rolling histories, oldest first: units of work, each running or closed with its response time,
and outcomes, each with the instant of its completion. A completion closes the newest running unit.
Every write drops what is older than the retention and then the oldest closed entries beyond the
cap; running units are never dropped. Window aggregates of the histories give the budget.
-/

namespace TieredAdmission

/-- One observed unit of work. -/
inductive Sample where
  | running
  | closed (completedAt : Instant) (responseTime : Duration)
deriving DecidableEq, Repr

namespace Sample

def isRunning : Sample → Bool
  | running => true
  | closed _ _ => false

/-- The unit is running, or was completed at or after the cutoff. -/
def isRetained (cutoff : Instant) : Sample → Bool
  | running => true
  | closed at_ _ => decide (cutoff ≤ at_)

/-- The response time of a unit completed at or after the cutoff. -/
def responseSince? (cutoff : Option Instant) : Sample → Option Duration
  | running => none
  | closed at_ took => if Instant.isSince cutoff at_ then some took else none

/-- The history with its newest running unit replaced, unless none is running. -/
def closeNewest? (c : Sample) : List Sample → Option (List Sample)
  | [] => none
  | s :: rest =>
    match closeNewest? c rest with
    | some rest => some (s :: rest)
    | none => if s.isRunning then some (c :: rest) else none

/-- The history without its `n` oldest closed units. -/
def dropClosed : Nat → List Sample → List Sample
  | _, [] => []
  | 0, ss => ss
  | n + 1, s :: rest => if s.isRunning then s :: dropClosed (n + 1) rest else dropClosed n rest

end Sample

structure OutcomeSample where
  at_ : Instant
  isError : Bool
deriving DecidableEq, Repr

structure WindowStats where
  completed : Nat
  errors : Nat
  avgResponseTime : Duration
  errorRate : Float

structure Estimator where
  config : CapacityConfig
  samples : List Sample := []
  outcomes : List OutcomeSample := []
  /-- The concurrency level last made known. -/
  lastMaxConcurrent : Option Nat := none
  /-- A refreshed budget needed an instant or a sum of durations that cannot be stored. Once set it
  stays set. -/
  overflowed : Bool := false

namespace Estimator

def new (config : CapacityConfig) : Estimator := { config := config.normalized }

def prune (e : Estimator) (now : Instant) : Estimator :=
  let (samples, outcomes) :=
    match now.before? e.config.retention with
    | none => (e.samples, e.outcomes)
    | some cutoff =>
      (e.samples.filter (Sample.isRetained cutoff),
        e.outcomes.dropWhile fun o => decide (o.at_ < cutoff))
  let cap := e.config.maxSamples
  { e with
    samples := Sample.dropClosed (samples.length - cap) samples
    outcomes := outcomes.drop (outcomes.length - cap) }

def recordStart (e : Estimator) (now : Instant) : Estimator :=
  prune { e with samples := e.samples ++ [Sample.running] } now

/-- Closes the newest running unit, or adds a closed one when none is running, and notes the
outcome. -/
def recordComplete (e : Estimator) (now : Instant) (responseTime : Duration) (isError : Bool) :
    Estimator :=
  let closed := Sample.closed now responseTime
  prune
    { e with
      samples := (Sample.closeNewest? closed e.samples).getD (e.samples ++ [closed])
      outcomes := e.outcomes ++ [⟨now, isError⟩] }
    now

def responseTimes (e : Estimator) (now : Instant) (window : Duration) : List Duration :=
  e.samples.filterMap (Sample.responseSince? (now.before? window))

/-- Aggregates over the completions within a window. -/
def windowStats (e : Estimator) (now : Instant) (window : Duration) : WindowStats :=
  let times := e.responseTimes now window
  let recent := e.outcomes.filter fun o => Instant.isSince (now.before? window) o.at_
  let completed := recent.length
  let errors := (recent.filter (·.isError)).length
  { completed
    errors
    avgResponseTime := (Duration.sum times).share times.length
    errorRate := if completed = 0 then 0.0
      else errors.toUInt64.toFloat / completed.toUInt64.toFloat }

/-- The instant and the sum behind the aggregates of a window can be stored. -/
def measurable (e : Estimator) (now : Instant) (window : Duration) : Bool :=
  decide now.Readable && decide (Duration.sum (e.responseTimes now window)).Fits

def openSamples (e : Estimator) : Nat := (e.samples.filter Sample.isRunning).length

def currentBudget (e : Estimator) (now : Instant) (processing : Nat) : CapacityBudget :=
  let stats := e.windowStats now e.config.decisionWindow
  { CapacityBudget.ofCounts (e.config.concurrencyFor stats.avgResponseTime) processing with
    avgResponseTime := stats.avgResponseTime
    errorRate := stats.errorRate
    sampleCount := stats.completed }

/-- The budget over the decision window; a concurrency level other than the last one is recorded. -/
def refreshBudget (e : Estimator) (m : Telemetry) (now : Instant) (processing : Nat) :
    CapacityBudget × Estimator × Telemetry :=
  let budget := e.currentBudget now processing
  let e := { e with overflowed := e.overflowed || !e.measurable now e.config.decisionWindow }
  if e.lastMaxConcurrent = some budget.maxConcurrent then (budget, e, m)
  else
    (budget, { e with lastMaxConcurrent := some budget.maxConcurrent },
      m.recordMaxConcurrent budget.maxConcurrent)

@[simp] theorem refreshBudget_fst (e : Estimator) (m : Telemetry) (now : Instant) (p : Nat) :
    (e.refreshBudget m now p).1 = e.currentBudget now p := by
  simp only [refreshBudget]
  split <;> rfl

end Estimator

end TieredAdmission

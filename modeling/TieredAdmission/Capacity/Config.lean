import TieredAdmission.Time.Duration

/-!
# Capacity configuration

Latency bounds with their concurrency levels, the windows of the histories, and the normal form in
which an estimator keeps them: bounds in ascending order, a cap of at least one sample and a level
of at least one slot above every bound.
-/

namespace TieredAdmission

/-- The concurrency level of average latencies strictly below a bound. -/
structure ConcurrencyThreshold where
  belowMs : Nat
  maxConcurrent : Nat
deriving DecidableEq, Repr

structure CapacityConfig where
  /-- The window that feeds the admission decision. -/
  decisionWindowSecs : Nat := 60
  /-- Samples older than this are dropped on every write. -/
  retentionSecs : Nat := 300
  /-- The cap on the samples kept in each history. -/
  maxSamples : Nat := 1000
  thresholds : List ConcurrencyThreshold := [⟨1000, 6⟩, ⟨5000, 4⟩, ⟨15000, 2⟩]
  /-- The level of latencies above every bound. -/
  fallbackConcurrency : Nat := 1
deriving DecidableEq, Repr

namespace CapacityConfig

def decisionWindow (c : CapacityConfig) : Duration := .ofSeconds c.decisionWindowSecs

/-- The age at which samples are dropped. -/
def retention (c : CapacityConfig) : Duration := .ofSeconds c.retentionSecs

/-- The thresholds by ascending bound; equal bounds keep their order. -/
def sortThresholds (ts : List ConcurrencyThreshold) : List ConcurrencyThreshold :=
  ts.mergeSort fun a b => decide (a.belowMs ≤ b.belowMs)

/-- No level in the list is above the one before it. -/
def descending : List ConcurrencyThreshold → Bool
  | a :: b :: rest => decide (b.maxConcurrent ≤ a.maxConcurrent) && descending (b :: rest)
  | _ => true

/-- Slower latency bands never have more slots than faster ones. -/
def isMonotonic (c : CapacityConfig) : Bool :=
  let sorted := sortThresholds c.thresholds
  descending sorted &&
    match sorted.getLast? with
    | none => true
    | some t => decide (c.fallbackConcurrency ≤ t.maxConcurrent)

/-- The form in which an estimator keeps its configuration. -/
def normalized (c : CapacityConfig) : CapacityConfig :=
  { c with
    thresholds := sortThresholds c.thresholds
    fallbackConcurrency := max c.fallbackConcurrency 1
    maxSamples := max c.maxSamples 1 }

def concurrencyFor (c : CapacityConfig) (avg : Duration) : Nat :=
  match c.thresholds.find? fun t => decide (avg.millis < t.belowMs) with
  | none => c.fallbackConcurrency
  | some t => max t.maxConcurrent 1

end CapacityConfig

end TieredAdmission

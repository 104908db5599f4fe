import TieredAdmission.Admission.Controller

/-!
# Reports

What a controller tells about itself: a compact snapshot for polling, the full diagnostic statistics
and the health report.
-/

namespace TieredAdmission

structure MetricsSnapshot where
  totalRequests : Nat
  /-- Queued and processing requests together. -/
  activeRequests : Nat
  queueDepth : PerTier Nat
  avgResponseTimeMs : Float
  counters : RequestCounters

structure DetailedStats where
  scheduler : SchedulerKind
  queueDepth : PerTier Nat
  processing : PerTier Nat
  allocation : PerTier Nat
  avgWaitTimeMs : Float
  avgProcessingTimeMs : Float
  processingRatePerMinute : Float
  completedByTier : PerTier Nat
  activeRequests : List EntrySnapshot
  counters : RequestCounters
  breaker : BreakerSnapshot
  budget : CapacityBudget

namespace Controller

def metrics (c : Controller) (now : Instant) : MetricsSnapshot where
  totalRequests := c.statistics.counters.total
  activeRequests := c.scheduler.queued.total + c.scheduler.processing.total
  queueDepth := c.scheduler.queued
  avgResponseTimeMs := (c.statistics.summary now).avgProcessing.toMillis
  counters := c.statistics.counters

def detailedStats (c : Controller) (now : Instant) : DetailedStats :=
  let budget := c.budget now
  let summary := c.statistics.summary now
  { scheduler := c.scheduler.kind
    queueDepth := c.scheduler.queued
    processing := c.scheduler.processing
    allocation := c.scheduler.allocation budget.maxConcurrent
    avgWaitTimeMs := summary.avgWait.toMillis
    avgProcessingTimeMs := summary.avgProcessing.toMillis
    processingRatePerMinute := summary.ratePerMinute
    completedByTier := summary.completed
    activeRequests := c.scheduler.snapshots now
    counters := c.statistics.counters
    breaker := c.breaker.snapshot
    budget }

def healthReport (c : Controller) : HealthReport :=
  c.health.report
    { phase := c.gate.phase
      breaker := c.breaker.state
      queueDepth := c.scheduler.queued.total
      processing := c.scheduler.processing.total }

/-- The instants and sums behind the budget can be stored. -/
def budgetable (c : Controller) (now : Instant) : Bool :=
  c.estimator.measurable now c.estimator.config.decisionWindow

/-- The instants and sums behind the compact snapshot can be stored. -/
def summarizable (c : Controller) (now : Instant) : Bool := c.statistics.summarizable now

end Controller

end TieredAdmission

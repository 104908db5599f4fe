import TieredAdmission.Admission.Report
import TieredAdmission.Record.Basic

/-!
# Reports as data trees

How budgets, statistics, health reports and outcomes are written as records.
-/

namespace TieredAdmission

def CapacityBudget.toDatum (b : CapacityBudget) : Datum :=
  .record [("max_concurrent", .count b.maxConcurrent),
    ("current_processing", .count b.currentProcessing), ("available", .count b.available),
    ("avg_response_time", b.avgResponseTime.toDatum), ("error_rate", .real b.errorRate),
    ("sample_count", .count b.sampleCount)]

def WindowStats.toDatum (w : WindowStats) : Datum :=
  .record [("completed", .count w.completed), ("errors", .count w.errors),
    ("avg_response_time", w.avgResponseTime.toDatum), ("error_rate", .real w.errorRate)]

def BreakerSnapshot.toDatum (b : BreakerSnapshot) : Datum :=
  .record [("state", .text b.state.name), ("failures", b.failures.countsDatum),
    ("success_count", .count b.successCount)]

def BreakerTransition.toDatum (t : BreakerTransition) : Datum :=
  .record [("from", .text t.source.name), ("to", .text t.target.name)]

def RequestCounters.toDatum (c : RequestCounters) : Datum :=
  .record [("total", .count c.total), ("succeeded", .count c.succeeded),
    ("failed", .count c.failed), ("rejected", .count c.rejected),
    ("cancelled", .count c.cancelled)]

def CompletionSummary.toDatum (s : CompletionSummary) : Datum :=
  .record [("completed", s.completed.countsDatum), ("avg_wait", s.avgWait.toDatum),
    ("avg_processing", s.avgProcessing.toDatum), ("rate_per_minute", .real s.ratePerMinute)]

def EntrySnapshot.toDatum (e : EntrySnapshot) : Datum :=
  .record [("id", .text e.id), ("tier", .text e.tier.name), ("state", .text e.state.name),
    ("waited_ms", .count e.waitedMs), ("processing_ms", .ofOption .count e.processingMs),
    ("priority", .ofOption .real e.priority)]

def MetricsSnapshot.toDatum (m : MetricsSnapshot) : Datum :=
  .record [("total_requests", .count m.totalRequests),
    ("active_requests", .count m.activeRequests), ("queue_depth", m.queueDepth.countsDatum),
    ("avg_response_time_ms", .real m.avgResponseTimeMs), ("counters", m.counters.toDatum)]

def DetailedStats.toDatum (s : DetailedStats) : Datum :=
  .record [("scheduler", .text s.scheduler.name), ("queue_depth", s.queueDepth.countsDatum),
    ("processing", s.processing.countsDatum), ("allocation", s.allocation.countsDatum),
    ("avg_wait_time_ms", .real s.avgWaitTimeMs),
    ("avg_processing_time_ms", .real s.avgProcessingTimeMs),
    ("processing_rate_per_minute", .real s.processingRatePerMinute),
    ("completed_by_tier", s.completedByTier.countsDatum),
    ("active_requests", .list (s.activeRequests.map EntrySnapshot.toDatum)),
    ("counters", s.counters.toDatum), ("breaker", s.breaker.toDatum),
    ("budget", s.budget.toDatum)]

def HealthReport.toDatum (h : HealthReport) : Datum :=
  .record [("state", .text h.state.title), ("ready", .flag h.ready),
    ("accepting_requests", .flag h.accepting), ("breaker", .text h.breaker.name),
    ("queue_depth", .count h.queueDepth), ("processing", .count h.processing)]

def ExecutionOutput.toDatum (o : ExecutionOutput) : Datum :=
  .record [("content", .text o.content),
    ("usage", .record [("prompt_tokens", .count o.usage.promptTokens),
      ("completion_tokens", .count o.usage.completionTokens),
      ("total_tokens", .count o.usage.totalTokens)]),
    ("simulated", .flag o.simulated)]

def Completion.toDatum (c : Completion) : Datum :=
  .record [("id", .text c.id), ("tier", .text c.tier.name), ("path", .text c.path.name),
    ("output", c.output.toDatum), ("waited", c.waited.toDatum),
    ("processing", c.processing.toDatum)]

end TieredAdmission

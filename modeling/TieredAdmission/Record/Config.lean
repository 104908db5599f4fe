import TieredAdmission.Config.Gateway
import TieredAdmission.Record.Basic

/-!
# Configurations as data trees

How configurations are written as records, under the names from which they are read.
-/

namespace TieredAdmission

def TierPolicy.toDatum (c : TierPolicy) : Datum :=
  .record [("base_priority", c.basePriority.toDatum .real), ("weight", c.weight.toDatum .real)]

def SchedulerConfig.toDatum (c : SchedulerConfig) : Datum :=
  .record [("kind", .text c.kind.name), ("aging_cap_secs", .count c.agingCapSecs),
    ("policy", c.policy.toDatum), ("fixed_limits", c.fixedLimits.countsDatum)]

def ConcurrencyThreshold.toDatum (t : ConcurrencyThreshold) : Datum :=
  .record [("below_ms", .count t.belowMs), ("max_concurrent", .count t.maxConcurrent)]

def CapacityConfig.toDatum (c : CapacityConfig) : Datum :=
  .record [("decision_window_secs", .count c.decisionWindowSecs),
    ("retention_secs", .count c.retentionSecs), ("max_samples", .count c.maxSamples),
    ("thresholds", .list (c.thresholds.map ConcurrencyThreshold.toDatum)),
    ("fallback_concurrency", .count c.fallbackConcurrency)]

def BreakerConfig.toDatum (c : BreakerConfig) : Datum :=
  .record [("trip_threshold", .count c.tripThreshold),
    ("open_timeout_secs", .count c.openTimeoutSecs),
    ("success_threshold", .count c.successThreshold),
    ("error_threshold", c.errorThreshold.toDatum .real)]

def HealthConfig.toDatum (c : HealthConfig) : Datum :=
  .record [("max_queue_depth", .count c.maxQueueDepth)]

def AdmissionConfig.toDatum (c : AdmissionConfig) : Datum :=
  .record [("scheduler", c.scheduler.toDatum), ("capacity", c.capacity.toDatum),
    ("breaker", c.breaker.toDatum), ("health", c.health.toDatum),
    ("event_buffer", .count c.eventBuffer), ("stats_retention_secs", .count c.statsRetentionSecs)]

def SimulatorConfig.toDatum (c : SimulatorConfig) : Datum :=
  .record [("min_latency_ms", .count c.minLatencyMs), ("max_latency_ms", .count c.maxLatencyMs),
    ("failure_rate", .real c.failureRate), ("completion_tokens", .count c.completionTokens)]

def ExecutionConfig.toDatum (c : ExecutionConfig) : Datum :=
  .record [("mode", .text c.mode.name), ("simulator", c.simulator.toDatum)]

def LogConfig.toDatum (c : LogConfig) : Datum :=
  .record [("format", .text c.format.name), ("level", .text c.level),
    ("output_path", .ofOption .text c.outputPath)]

def GatewayConfig.toDatum (c : GatewayConfig) : Datum :=
  .record [("admission", c.admission.toDatum), ("execution", c.execution.toDatum),
    ("logging", c.logging.toDatum), ("shutdown_timeout_secs", .count c.shutdownTimeoutSecs)]

def EffectiveConfig.toDatum (c : EffectiveConfig) : Datum :=
  .record [("scheduler", .text c.scheduler.name), ("aging_cap_secs", .count c.agingCapSecs),
    ("decision_window_secs", .count c.decisionWindowSecs),
    ("retention_secs", .count c.retentionSecs), ("max_samples", .count c.maxSamples),
    ("breaker_trip", .count c.breakerTrip), ("breaker_timeout_secs", .count c.breakerTimeoutSecs),
    ("breaker_successes", .count c.breakerSuccesses),
    ("execution_mode", .text c.executionMode.name),
    ("sim_min_latency_ms", .count c.simMinLatencyMs),
    ("sim_max_latency_ms", .count c.simMaxLatencyMs),
    ("sim_failure_rate", .real c.simFailureRate),
    ("shutdown_timeout_secs", .count c.shutdownTimeoutSecs),
    ("event_buffer", .count c.eventBuffer), ("log_format", .text c.logFormat.name),
    ("log_level", .text c.logLevel)]

end TieredAdmission

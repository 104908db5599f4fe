import TieredAdmission.Config.Gateway
import TieredAdmission.Datum

/-!
# Configurations from data trees

How each part of the configuration is read from a data tree. Parts that are left out have their
defaults, except in tables by tier and in thresholds, which are complete; names that mean nothing
are ignored; and a value of a wrong kind makes the whole unreadable.
-/

namespace TieredAdmission

variable (dialect : Dialect)

def PerTier.ofDatum? {α : Type} (read : Datum → Option α) (d : Datum) : Option (PerTier α) := do
  let p ← d.parts? dialect ["enterprise", "premium", "free"]
  return ⟨← required p "enterprise" read, ← required p "premium" read, ← required p "free" read⟩

def TierPolicy.ofDatum? (d : Datum) : Option TierPolicy := do
  let p ← d.parts? dialect ["base_priority", "weight"]
  let base : TierPolicy := {}
  return {
    basePriority :=
      ← optional p "base_priority" (PerTier.ofDatum? dialect Datum.float?) base.basePriority
    weight := ← optional p "weight" (PerTier.ofDatum? dialect Datum.float?) base.weight }

def SchedulerKind.ofDatum? (d : Datum) : Option SchedulerKind :=
  (d.word? dialect).bind SchedulerKind.ofName?

def SchedulerConfig.ofDatum? (d : Datum) : Option SchedulerConfig := do
  let p ← d.parts? dialect ["kind", "aging_cap_secs", "policy", "fixed_limits"]
  let base : SchedulerConfig := {}
  return {
    kind := ← optional p "kind" (SchedulerKind.ofDatum? dialect) base.kind
    agingCapSecs := ← optional p "aging_cap_secs" Datum.word64? base.agingCapSecs
    policy := ← optional p "policy" (TierPolicy.ofDatum? dialect) base.policy
    fixedLimits :=
      ← optional p "fixed_limits" (PerTier.ofDatum? dialect Datum.word64?) base.fixedLimits }

def ConcurrencyThreshold.ofDatum? (d : Datum) : Option ConcurrencyThreshold := do
  let p ← d.parts? dialect ["below_ms", "max_concurrent"]
  return ⟨← required p "below_ms" Datum.word64?, ← required p "max_concurrent" Datum.word64?⟩

def ConcurrencyThreshold.listOfDatum? (d : Datum) : Option (List ConcurrencyThreshold) :=
  d.list?.bind fun xs => xs.mapM (ConcurrencyThreshold.ofDatum? dialect)

def CapacityConfig.ofDatum? (d : Datum) : Option CapacityConfig := do
  let p ← d.parts? dialect
    ["decision_window_secs", "retention_secs", "max_samples", "thresholds", "fallback_concurrency"]
  let base : CapacityConfig := {}
  return {
    decisionWindowSecs := ← optional p "decision_window_secs" Datum.word64? base.decisionWindowSecs
    retentionSecs := ← optional p "retention_secs" Datum.word64? base.retentionSecs
    maxSamples := ← optional p "max_samples" Datum.word64? base.maxSamples
    thresholds :=
      ← optional p "thresholds" (ConcurrencyThreshold.listOfDatum? dialect) base.thresholds
    fallbackConcurrency :=
      ← optional p "fallback_concurrency" Datum.word64? base.fallbackConcurrency }

def BreakerConfig.ofDatum? (d : Datum) : Option BreakerConfig := do
  let p ← d.parts? dialect
    ["trip_threshold", "open_timeout_secs", "success_threshold", "error_threshold"]
  let base : BreakerConfig := {}
  return {
    tripThreshold := ← optional p "trip_threshold" Datum.word32? base.tripThreshold
    openTimeoutSecs := ← optional p "open_timeout_secs" Datum.word64? base.openTimeoutSecs
    successThreshold := ← optional p "success_threshold" Datum.word32? base.successThreshold
    errorThreshold :=
      ← optional p "error_threshold" (PerTier.ofDatum? dialect Datum.float?)
        base.errorThreshold }

def HealthConfig.ofDatum? (d : Datum) : Option HealthConfig := do
  let p ← d.parts? dialect ["max_queue_depth"]
  return ⟨← optional p "max_queue_depth" Datum.word64? ({} : HealthConfig).maxQueueDepth⟩

def AdmissionConfig.ofDatum? (d : Datum) : Option AdmissionConfig := do
  let p ← d.parts? dialect
    ["scheduler", "capacity", "breaker", "health", "event_buffer", "stats_retention_secs"]
  let base : AdmissionConfig := {}
  return {
    scheduler := ← optional p "scheduler" (SchedulerConfig.ofDatum? dialect) base.scheduler
    capacity := ← optional p "capacity" (CapacityConfig.ofDatum? dialect) base.capacity
    breaker := ← optional p "breaker" (BreakerConfig.ofDatum? dialect) base.breaker
    health := ← optional p "health" (HealthConfig.ofDatum? dialect) base.health
    eventBuffer := ← optional p "event_buffer" Datum.word64? base.eventBuffer
    statsRetentionSecs :=
      ← optional p "stats_retention_secs" Datum.word64? base.statsRetentionSecs }

def SimulatorConfig.ofDatum? (d : Datum) : Option SimulatorConfig := do
  let p ← d.parts? dialect
    ["min_latency_ms", "max_latency_ms", "failure_rate", "completion_tokens"]
  let base : SimulatorConfig := {}
  return {
    minLatencyMs := ← optional p "min_latency_ms" Datum.word64? base.minLatencyMs
    maxLatencyMs := ← optional p "max_latency_ms" Datum.word64? base.maxLatencyMs
    failureRate := ← optional p "failure_rate" Datum.float? base.failureRate
    completionTokens := ← optional p "completion_tokens" Datum.word32? base.completionTokens }

def ExecutionMode.ofDatum? (d : Datum) : Option ExecutionMode :=
  (d.word? dialect).bind ExecutionMode.ofName?

def ExecutionConfig.ofDatum? (d : Datum) : Option ExecutionConfig := do
  let p ← d.parts? dialect ["mode", "simulator"]
  let base : ExecutionConfig := {}
  return {
    mode := ← optional p "mode" (ExecutionMode.ofDatum? dialect) base.mode
    simulator := ← optional p "simulator" (SimulatorConfig.ofDatum? dialect) base.simulator }

/-- Reads the path of the log file, which may be null for none. -/
def LogConfig.pathOfDatum? : Datum → Option (Option String)
  | .null => some none
  | d => d.text?.map some

def LogConfig.ofDatum? (d : Datum) : Option LogConfig := do
  let p ← d.parts? dialect ["format", "level", "output_path"]
  let base : LogConfig := {}
  return {
    format := ← optional p "format" (fun d => (d.word? dialect).bind LogFormat.ofName?) base.format
    level := ← optional p "level" Datum.text? base.level
    outputPath := ← optional p "output_path" LogConfig.pathOfDatum? base.outputPath }

def GatewayConfig.ofDatum? (d : Datum) : Option GatewayConfig := do
  let p ← d.parts? dialect ["admission", "execution", "logging", "shutdown_timeout_secs"]
  let base : GatewayConfig := {}
  return {
    admission := ← optional p "admission" (AdmissionConfig.ofDatum? dialect) base.admission
    execution := ← optional p "execution" (ExecutionConfig.ofDatum? dialect) base.execution
    logging := ← optional p "logging" (LogConfig.ofDatum? dialect) base.logging
    shutdownTimeoutSecs :=
      ← optional p "shutdown_timeout_secs" Datum.word64? base.shutdownTimeoutSecs }

end TieredAdmission

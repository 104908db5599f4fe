import TieredAdmission.Admission.Config
import TieredAdmission.Execution
import TieredAdmission.Logging

/-!
# Gateway configuration

Everything that can be configured, and its clamping. `GatewayConfig.sanitized` raises whole numbers
to their floors and puts the failure rate between zero and one; settings within their bounds stay.
`EffectiveConfig` is the flat summary that is shown to users.
-/

namespace TieredAdmission

structure ExecutionConfig where
  mode : ExecutionMode := .simulated
  simulator : SimulatorConfig := {}

structure GatewayConfig where
  admission : AdmissionConfig := {}
  execution : ExecutionConfig := {}
  logging : LogConfig := {}
  shutdownTimeoutSecs : Nat := 30

/-- The flat summary of the values in effect. -/
structure EffectiveConfig where
  scheduler : SchedulerKind
  agingCapSecs : Nat
  decisionWindowSecs : Nat
  retentionSecs : Nat
  maxSamples : Nat
  breakerTrip : Nat
  breakerTimeoutSecs : Nat
  breakerSuccesses : Nat
  executionMode : ExecutionMode
  simMinLatencyMs : Nat
  simMaxLatencyMs : Nat
  simFailureRate : Float
  shutdownTimeoutSecs : Nat
  eventBuffer : Nat
  logFormat : LogFormat
  logLevel : String

namespace SchedulerConfig

def sanitized (c : SchedulerConfig) : SchedulerConfig :=
  { c with
    agingCapSecs := max c.agingCapSecs 1
    fixedLimits := c.fixedLimits.map fun _ n => max n 1 }

end SchedulerConfig

namespace CapacityConfig

/-- The configuration with its floors; samples are kept at least for the decision window. -/
def sanitized (c : CapacityConfig) : CapacityConfig :=
  { c with
    decisionWindowSecs := max c.decisionWindowSecs 1
    retentionSecs := max c.retentionSecs (max c.decisionWindowSecs 1)
    maxSamples := max c.maxSamples 1
    fallbackConcurrency := max c.fallbackConcurrency 1 }

end CapacityConfig

namespace BreakerConfig

def sanitized (c : BreakerConfig) : BreakerConfig :=
  { c with
    tripThreshold := max c.tripThreshold 1
    openTimeoutSecs := max c.openTimeoutSecs 1
    successThreshold := max c.successThreshold 1 }

end BreakerConfig

namespace AdmissionConfig

def sanitized (c : AdmissionConfig) : AdmissionConfig :=
  { c with
    scheduler := c.scheduler.sanitized
    capacity := c.capacity.sanitized
    breaker := c.breaker.sanitized
    eventBuffer := max c.eventBuffer 1
    statsRetentionSecs := max c.statsRetentionSecs 60 }

end AdmissionConfig

namespace SimulatorConfig

/-- The configuration with its failure rate clamped and its latencies in order. -/
def sanitized (c : SimulatorConfig) : SimulatorConfig :=
  { c with
    failureRate := clampUnit c.failureRate
    maxLatencyMs := max c.maxLatencyMs c.minLatencyMs }

end SimulatorConfig

namespace GatewayConfig

/-- The configuration with every setting within its bounds. -/
def sanitized (c : GatewayConfig) : GatewayConfig :=
  { c with
    admission := c.admission.sanitized
    execution := { c.execution with simulator := c.execution.simulator.sanitized }
    shutdownTimeoutSecs := max c.shutdownTimeoutSecs 1 }

def shutdownTimeout (c : GatewayConfig) : Duration := .ofSeconds c.shutdownTimeoutSecs

def effective (c : GatewayConfig) : EffectiveConfig where
  scheduler := c.admission.scheduler.kind
  agingCapSecs := c.admission.scheduler.agingCapSecs
  decisionWindowSecs := c.admission.capacity.decisionWindowSecs
  retentionSecs := c.admission.capacity.retentionSecs
  maxSamples := c.admission.capacity.maxSamples
  breakerTrip := c.admission.breaker.tripThreshold
  breakerTimeoutSecs := c.admission.breaker.openTimeoutSecs
  breakerSuccesses := c.admission.breaker.successThreshold
  executionMode := c.execution.mode
  simMinLatencyMs := c.execution.simulator.minLatencyMs
  simMaxLatencyMs := c.execution.simulator.maxLatencyMs
  simFailureRate := c.execution.simulator.failureRate
  shutdownTimeoutSecs := c.shutdownTimeoutSecs
  eventBuffer := c.admission.eventBuffer
  logFormat := c.logging.format
  logLevel := c.logging.level

end GatewayConfig

end TieredAdmission

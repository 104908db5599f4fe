import TieredAdmission.Config.Gateway
import TieredAdmission.Decimal.Literal
import TieredAdmission.Decimal.Binary

/-!
# Settings from the environment

Every setting that can be overridden has one variable. A variable counts when it is set, is text and
can be read after the blanks around it are dropped; otherwise the setting keeps its value. The
failure rate has to be finite, and the log level must not be blank.
-/

namespace TieredAdmission

/-- The environment: the bytes of every variable that is set. -/
structure Environment where
  bytes? : String → Option ByteArray

namespace Environment

/-- The value of a variable, when it is set and is text. -/
def text? (env : Environment) (name : String) : Option String :=
  (env.bytes? name).bind String.fromUTF8?

/-- A setting with the value of its variable, when that counts. -/
def setting {α : Type} (env : Environment) (name : String) (read : String → Option α)
    (current : α) : α :=
  ((env.text? name).bind fun s => read (Text.trim s)).getD current

def empty : Environment := ⟨fun _ => none⟩

end Environment

/-- The variables of the settings. -/
inductive Variable where
  | scheduler
  | agingCapSecs
  | decisionWindowSecs
  | retentionSecs
  | maxSamples
  | breakerTrip
  | breakerTimeoutSecs
  | breakerSuccesses
  | executionMode
  | simMinLatencyMs
  | simMaxLatencyMs
  | simFailureRate
  | shutdownTimeout
  | eventBuffer
  | logFormat
  | logLevel
deriving DecidableEq, Repr

namespace Variable

/-- All variables, in the order in which they are listed. -/
def all : List Variable :=
  [scheduler, agingCapSecs, decisionWindowSecs, retentionSecs, maxSamples, breakerTrip,
    breakerTimeoutSecs, breakerSuccesses, executionMode, simMinLatencyMs, simMaxLatencyMs,
    simFailureRate, shutdownTimeout, eventBuffer, logFormat, logLevel]

def name : Variable → String
  | scheduler => "TIERGATE_SCHEDULER"
  | agingCapSecs => "TIERGATE_AGING_CAP_SECS"
  | decisionWindowSecs => "TIERGATE_DECISION_WINDOW_SECS"
  | retentionSecs => "TIERGATE_RETENTION_SECS"
  | maxSamples => "TIERGATE_MAX_SAMPLES"
  | breakerTrip => "TIERGATE_BREAKER_TRIP"
  | breakerTimeoutSecs => "TIERGATE_BREAKER_TIMEOUT_SECS"
  | breakerSuccesses => "TIERGATE_BREAKER_SUCCESSES"
  | executionMode => "TIERGATE_EXECUTION_MODE"
  | simMinLatencyMs => "TIERGATE_SIM_MIN_LATENCY_MS"
  | simMaxLatencyMs => "TIERGATE_SIM_MAX_LATENCY_MS"
  | simFailureRate => "TIERGATE_SIM_FAILURE_RATE"
  | shutdownTimeout => "TIERGATE_SHUTDOWN_TIMEOUT"
  | eventBuffer => "TIERGATE_EVENT_BUFFER"
  | logFormat => "TIERGATE_LOG_FORMAT"
  | logLevel => "TIERGATE_LOG_LEVEL"

def configPath : String := "TIERGATE_CONFIG"

def ofName? (s : String) : Option Variable := all.find? fun v => v.name == s

theorem ofName?_name (v : Variable) : ofName? v.name = some v := by cases v <;> rfl

theorem mem_all (v : Variable) : v ∈ all := by cases v <;> decide

end Variable

def finiteFloat? (s : String) : Option Float :=
  (Decimal.float? s).bind fun x => if Decimal.isFinite x then some x else none

def nonempty? (s : String) : Option String := if s.isEmpty then none else some s

namespace Environment

def override {α : Type} (env : Environment) (v : Variable) (read : String → Option α)
    (current : α) : α := env.setting v.name read current

end Environment

namespace SchedulerConfig

def overlay (c : SchedulerConfig) (env : Environment) : SchedulerConfig :=
  { c with
    kind := env.override .scheduler (fun s => (SchedulerKind.parse s).toOption) c.kind
    agingCapSecs := env.override .agingCapSecs Decimal.word64? c.agingCapSecs }

end SchedulerConfig

namespace CapacityConfig

def overlay (c : CapacityConfig) (env : Environment) : CapacityConfig :=
  { c with
    decisionWindowSecs := env.override .decisionWindowSecs Decimal.word64? c.decisionWindowSecs
    retentionSecs := env.override .retentionSecs Decimal.word64? c.retentionSecs
    maxSamples := env.override .maxSamples Decimal.word64? c.maxSamples }

end CapacityConfig

namespace BreakerConfig

def overlay (c : BreakerConfig) (env : Environment) : BreakerConfig :=
  { c with
    tripThreshold := env.override .breakerTrip Decimal.word32? c.tripThreshold
    openTimeoutSecs := env.override .breakerTimeoutSecs Decimal.word64? c.openTimeoutSecs
    successThreshold := env.override .breakerSuccesses Decimal.word32? c.successThreshold }

end BreakerConfig

namespace AdmissionConfig

def overlay (c : AdmissionConfig) (env : Environment) : AdmissionConfig :=
  { c with
    scheduler := c.scheduler.overlay env
    capacity := c.capacity.overlay env
    breaker := c.breaker.overlay env
    eventBuffer := env.override .eventBuffer Decimal.word64? c.eventBuffer }

end AdmissionConfig

namespace ExecutionConfig

def overlay (c : ExecutionConfig) (env : Environment) : ExecutionConfig :=
  { mode := env.override .executionMode (fun s => (ExecutionMode.parse s).toOption) c.mode
    simulator :=
      { c.simulator with
        minLatencyMs := env.override .simMinLatencyMs Decimal.word64? c.simulator.minLatencyMs
        maxLatencyMs := env.override .simMaxLatencyMs Decimal.word64? c.simulator.maxLatencyMs
        failureRate := env.override .simFailureRate finiteFloat? c.simulator.failureRate } }

end ExecutionConfig

namespace LogConfig

def overlay (c : LogConfig) (env : Environment) : LogConfig :=
  { c with
    format := env.override .logFormat (fun s => (LogFormat.parse s).toOption) c.format
    level := env.override .logLevel nonempty? c.level }

end LogConfig

namespace GatewayConfig

/-- The configuration with the settings of the environment. -/
def overlay (c : GatewayConfig) (env : Environment) : GatewayConfig where
  admission := c.admission.overlay env
  execution := c.execution.overlay env
  logging := c.logging.overlay env
  shutdownTimeoutSecs := env.override .shutdownTimeout Decimal.word64? c.shutdownTimeoutSecs

end GatewayConfig

end TieredAdmission

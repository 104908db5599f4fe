import TieredAdmission.Config.Environment
import TieredAdmission.Decimal.Shortest

/-!
# Listing the values in effect

The values in effect as one assignment per line, in a form in which the environment can be set to
them.
-/

namespace TieredAdmission

/-- The text under which a variable gets the value in effect. -/
def EffectiveConfig.value (c : EffectiveConfig) : Variable → String
  | .scheduler => c.scheduler.name
  | .agingCapSecs => Decimal.text c.agingCapSecs
  | .decisionWindowSecs => Decimal.text c.decisionWindowSecs
  | .retentionSecs => Decimal.text c.retentionSecs
  | .maxSamples => Decimal.text c.maxSamples
  | .breakerTrip => Decimal.text c.breakerTrip
  | .breakerTimeoutSecs => Decimal.text c.breakerTimeoutSecs
  | .breakerSuccesses => Decimal.text c.breakerSuccesses
  | .executionMode => c.executionMode.name
  | .simMinLatencyMs => Decimal.text c.simMinLatencyMs
  | .simMaxLatencyMs => Decimal.text c.simMaxLatencyMs
  | .simFailureRate => Decimal.FloatStyle.plainDecimal.text c.simFailureRate
  | .shutdownTimeout => Decimal.text c.shutdownTimeoutSecs
  | .eventBuffer => Decimal.text c.eventBuffer
  | .logFormat => c.logFormat.name
  | .logLevel => c.logLevel

/-- One assignment per variable, each on a line of its own. -/
def EffectiveConfig.listing (c : EffectiveConfig) : String :=
  String.join (Variable.all.map fun v => v.name ++ "=" ++ c.value v ++ "\n")

end TieredAdmission

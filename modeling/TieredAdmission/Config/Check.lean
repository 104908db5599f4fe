import TieredAdmission.Config.Gateway
import TieredAdmission.Decimal.Fixed

/-!
# Checks of a configuration

Warnings about configurations that can be used but hardly are what was meant.
-/

namespace TieredAdmission

inductive ConfigWarning where
  /-- Slower latency bands have more slots than faster ones. -/
  | slowBandsGainSlots
  /-- The target shares add up to more than everything. -/
  | weightsAboveOne (total : Float)
  | prioritiesOutOfOrder
  /-- A free request outranks a fresh enterprise one after waiting. -/
  | agingOutranks (capSecs : Nat)

def ConfigWarning.message : ConfigWarning → String
  | slowBandsGainSlots => "capacity thresholds grant more slots to slower latency bands"
  | weightsAboveOne total => "tier weights sum to " ++ Decimal.fixed 2 total ++ ", above 1.0"
  | prioritiesOutOfOrder =>
    "base priorities are not strictly ordered enterprise > premium > free"
  | agingOutranks secs =>
    "aging cap " ++ Decimal.text secs ++ "s lets a free request outrank a fresh enterprise request"

/-- The distance from one to the next double. -/
def floatStep : Float := Float.ofBits 0x3CB0000000000000

namespace TierPolicy

def totalWeight (p : TierPolicy) : Float := p.weight.enterprise + p.weight.premium + p.weight.free

/-- The base priorities strictly follow the order of the tiers. -/
def isOrdered (p : TierPolicy) : Bool :=
  decide (p.basePriority.premium < p.basePriority.enterprise) &&
  decide (p.basePriority.free < p.basePriority.premium)

end TierPolicy

def GatewayConfig.warnings (c : GatewayConfig) : List ConfigWarning :=
  let scheduler := c.admission.scheduler
  let policy := scheduler.policy
  (if c.admission.capacity.isMonotonic then [] else [.slowBandsGainSlots]) ++
  (if 1.0 + floatStep < policy.totalWeight then [.weightsAboveOne policy.totalWeight] else []) ++
  (if policy.isOrdered then [] else [.prioritiesOutOfOrder]) ++
  (if policy.basePriority.enterprise <
      policy.basePriority.free + scheduler.agingCapSecs.toUInt64.toFloat
    then [.agingOutranks scheduler.agingCapSecs] else [])

end TieredAdmission

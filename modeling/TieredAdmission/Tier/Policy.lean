import TieredAdmission.Tier.PerTier

/-!
# Tier policy

Base priorities and target shares of the tiers. A tier's target share of `n` slots is `n` times its
weight, rounded to a double and then down to a whole number; shares below zero count as zero.
-/

namespace TieredAdmission

structure TierPolicy where
  /-- The score of a request that has not waited. -/
  basePriority : PerTier Float := ⟨30.0, 20.0, 10.0⟩
  /-- The target share of the concurrent slots. -/
  weight : PerTier Float := ⟨0.7, 0.2, 0.1⟩

namespace TierPolicy

/-- The whole slots of a tier's target share. -/
def targetShare (p : TierPolicy) (t : Tier) (slots : Nat) : Nat :=
  (slots.toUInt64.toFloat * p.weight.get t).toUInt64.toNat

/-- The target shares of all tiers. -/
def allocation (p : TierPolicy) (slots : Nat) : PerTier Nat :=
  PerTier.ofFn fun t => p.targetShare t slots

@[simp] theorem get_allocation (p : TierPolicy) (slots : Nat) (t : Tier) :
    (p.allocation slots).get t = p.targetShare t slots := PerTier.get_ofFn _ t

end TierPolicy

end TieredAdmission

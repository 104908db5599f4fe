import TieredAdmission.Config.Check
import TieredAdmission.Proofs.Capacity.Level
import TieredAdmission.Proofs.Double.Value

/-!
# Target shares and the check of the weights

A configuration is warned about when its weights add up to more than one, with a tolerance of one
unit in the last place. Each share is the rounded product of slots and weight without what is below
one. So where no weight is negative and there is no warning, all shares together exceed the slots
only by what the tolerance and the roundings add, which is less than one slot up to `2 ^ 53 / 5`
slots and less than three below `2 ^ 52`.
-/

namespace TieredAdmission

open Double

/-- Half the distance from one to the next double, which bounds a rounding error. -/
def roundingUnit : ℚ := 1 / 2 ^ 53

variable {p : TierPolicy} {c : GatewayConfig} {slots : Nat} {a : ℚ}

theorem roundingUnit_nonneg : 0 ≤ roundingUnit := by
  norm_num [roundingUnit]

private theorem value?_tolerance : value? (1.0 + floatStep) = some (1 + 2 * roundingUnit) := by
  have hunpack : (1.0 + floatStep).toModel.unpack =
      .finite .positive (2 ^ 52 + 1) (-52) (by decide) := rfl
  rw [value?, hunpack, valueOf?, signed, roundingUnit]
  norm_num

theorem GatewayConfig.warnings_eq_nil_iff :
    c.warnings = [] ↔
      c.admission.capacity.isMonotonic = true ∧
      ¬ 1.0 + floatStep < c.admission.scheduler.policy.totalWeight ∧
      c.admission.scheduler.policy.isOrdered = true ∧
      ¬ c.admission.scheduler.policy.basePriority.enterprise <
        c.admission.scheduler.policy.basePriority.free +
          c.admission.scheduler.agingCapSecs.toUInt64.toFloat := by
  simp [warnings]

namespace TierPolicy

/-- Weights that pass the check have values, and these add up to little more than one. -/
theorem exists_weights (nonneg : ∀ t, 0.0 ≤ p.weight.get t)
    (checked : ¬ 1.0 + floatStep < p.totalWeight) :
    ∃ w : PerTier ℚ, (∀ t, value? (p.weight.get t) = some (w.get t)) ∧
      w.enterprise + w.premium + w.free ≤ (1 + 2 * roundingUnit) * (1 + roundingUnit) ^ 2 := by
  have hpair : 0.0 ≤ p.weight.enterprise + p.weight.premium :=
    nonneg_add (nonneg .enterprise) (nonneg .premium)
  obtain ⟨total, htotal, hle⟩ :=
    exists_value_of_not_lt value?_tolerance (nonneg_add hpair (nonneg .free)) checked
  obtain ⟨pair, free, hpairValue, hfree, hsum⟩ := exists_values_of_add hpair (nonneg .free) htotal
  obtain ⟨enterprise, premium, henterprise, hpremium, hpairSum⟩ :=
    exists_values_of_add (nonneg .enterprise) (nonneg .premium) hpairValue
  refine ⟨⟨enterprise, premium, free⟩, fun t => ?_, ?_⟩
  · cases t
    · exact henterprise
    · exact hpremium
    · exact hfree
  · have hfree0 : 0 ≤ free := value_nonneg (nonneg .free) hfree
    have hunit := roundingUnit_nonneg
    calc enterprise + premium + free
      _ ≤ pair * (1 + roundingUnit) + free := by
        rw [roundingUnit]
        linarith
      _ ≤ (pair + free) * (1 + roundingUnit) := by
        linarith [mul_nonneg hfree0 hunit]
      _ ≤ total * (1 + roundingUnit) * (1 + roundingUnit) := by
        refine mul_le_mul_of_nonneg_right ?_ (by linarith)
        rw [roundingUnit]
        linarith
      _ = total * (1 + roundingUnit) ^ 2 := by ring
      _ ≤ (1 + 2 * roundingUnit) * (1 + roundingUnit) ^ 2 :=
        mul_le_mul_of_nonneg_right hle (by positivity)

/-- A share is what the exact product allows, up to a rounding error. -/
theorem targetShare_le {t : Tier} (hslots : slots < 2 ^ 53) (ha : value? (p.weight.get t) = some a)
    (ha0 : 0 ≤ a) (ha2 : a ≤ 2) :
    (p.targetShare t slots : ℚ) ≤ slots * a * (1 + roundingUnit) + roundingUnit ^ 4 := by
  have hproduct : 0 ≤ slots * a := mul_nonneg (Nat.cast_nonneg slots) ha0
  have hsmall : slots * a < 2 ^ (1023 : Int) := by
    have hslots' : (slots : ℚ) < 2 ^ (53 : Int) := by exact_mod_cast hslots
    calc slots * a
      _ ≤ slots * 2 := mul_le_mul_of_nonneg_left ha2 (Nat.cast_nonneg slots)
      _ < 2 ^ (53 : Int) * 2 := mul_lt_mul_of_pos_right hslots' two_pos
      _ = 2 ^ (54 : Int) := by norm_num
      _ ≤ 2 ^ (1023 : Int) := zpow_le_zpow_right₀ one_le_two (by norm_num)
  have htiny : (2 : ℚ) ^ (-1075 : Int) ≤ roundingUnit ^ 4 := by
    have hpower : roundingUnit ^ 4 = (2 : ℚ) ^ (-212 : Int) := by norm_num [roundingUnit]
    rw [hpower]
    exact zpow_le_zpow_right₀ one_le_two (by norm_num)
  obtain ⟨b, hb, hle⟩ := (rounded_mul (value?_toFloat hslots) ha).le hproduct hsmall
  have hrounded : b ≤ slots * a * (1 + roundingUnit) + roundingUnit ^ 4 := by
    calc b
      _ ≤ slots * a + (slots * a / 2 ^ 53 + 2 ^ (-1075 : Int)) := hle
      _ ≤ slots * a + (slots * a / 2 ^ 53 + roundingUnit ^ 4) := by gcongr
      _ = slots * a * (1 + roundingUnit) + roundingUnit ^ 4 := by
        rw [roundingUnit]
        ring
  have hbound : 0 ≤ slots * a * (1 + roundingUnit) + roundingUnit ^ 4 :=
    add_nonneg (mul_nonneg hproduct (add_nonneg zero_le_one roundingUnit_nonneg))
      (pow_nonneg roundingUnit_nonneg 4)
  rw [targetShare]
  exact (toNat_toUInt64_le hb).trans (max_le hrounded hbound)

theorem total_allocation_le (nonneg : ∀ t, 0.0 ≤ p.weight.get t)
    (checked : ¬ 1.0 + floatStep < p.totalWeight) (hslots : slots < 2 ^ 53) :
    ((p.allocation slots).total : ℚ) ≤
      slots * ((1 + 2 * roundingUnit) * (1 + roundingUnit) ^ 3) + 3 * roundingUnit ^ 4 := by
  obtain ⟨w, hw, hsum⟩ := exists_weights nonneg checked
  have hw0 (t : Tier) : 0 ≤ w.get t := value_nonneg (nonneg t) (hw t)
  have hcap : (1 + 2 * roundingUnit) * (1 + roundingUnit) ^ 2 ≤ 2 := by norm_num [roundingUnit]
  have hw2 (t : Tier) : w.get t ≤ 2 := by
    have he : 0 ≤ w.enterprise := hw0 .enterprise
    have hp : 0 ≤ w.premium := hw0 .premium
    have hf : 0 ≤ w.free := hw0 .free
    cases t <;> simp only [PerTier.get] <;> linarith
  have hshare (t : Tier) := targetShare_le hslots (hw t) (hw0 t) (hw2 t)
  have hscale : (0 : ℚ) ≤ slots * (1 + roundingUnit) :=
    mul_nonneg (Nat.cast_nonneg slots) (add_nonneg zero_le_one roundingUnit_nonneg)
  calc ((p.allocation slots).total : ℚ)
    _ = p.targetShare .enterprise slots + p.targetShare .premium slots +
        p.targetShare .free slots := by
      rw [← Nat.cast_add, ← Nat.cast_add]
      rfl
    _ ≤ slots * (1 + roundingUnit) * (w.enterprise + w.premium + w.free) +
        3 * roundingUnit ^ 4 := by
      have he := hshare .enterprise
      have hp := hshare .premium
      have hf := hshare .free
      simp only [PerTier.get] at he hp hf
      linarith
    _ ≤ slots * (1 + roundingUnit) * ((1 + 2 * roundingUnit) * (1 + roundingUnit) ^ 2) +
        3 * roundingUnit ^ 4 := by
      linarith [mul_le_mul_of_nonneg_left hsum hscale]
    _ = slots * ((1 + 2 * roundingUnit) * (1 + roundingUnit) ^ 3) + 3 * roundingUnit ^ 4 := by
      ring

end TierPolicy

namespace GatewayConfig

def weighted (w : PerTier Float) : GatewayConfig :=
  { admission := { scheduler := { policy := { weight := w } } } }

private theorem isMonotonic_default : ({} : CapacityConfig).isMonotonic = true := by
  have hsorted : CapacityConfig.sortThresholds ({} : CapacityConfig).thresholds =
      ({} : CapacityConfig).thresholds :=
    CapacityConfig.thresholds_normalized_of_sorted (by decide)
  rw [CapacityConfig.isMonotonic, hsorted]
  rfl

theorem warnings_weighted {w : PerTier Float}
    (h : ¬ 1.0 + floatStep < w.enterprise + w.premium + w.free) : (weighted w).warnings = [] :=
  have hordered : ({} : TierPolicy).isOrdered = true := by decide +kernel
  have haging : ¬ ({} : TierPolicy).basePriority.enterprise <
      ({} : TierPolicy).basePriority.free + (20).toUInt64.toFloat := by decide +kernel
  warnings_eq_nil_iff.2 ⟨isMonotonic_default, h, hordered, haging⟩

/-- Without a warning and without negative weights the shares keep within the slots, as long as
these are at most `2 ^ 53 / 5`. Up to `2 ^ 52` slots the tolerance and the roundings add at most
two. -/
theorem allocation_within_slots (quiet : c.warnings = [])
    (nonneg : ∀ t, 0.0 ≤ c.admission.scheduler.policy.weight.get t) :
    (5 * slots ≤ 2 ^ 53 → (c.admission.scheduler.policy.allocation slots).total ≤ slots) ∧
      (slots < 2 ^ 52 → (c.admission.scheduler.policy.allocation slots).total ≤ slots + 2) := by
  have hbound (hslots : slots < 2 ^ 53) :=
    TierPolicy.total_allocation_le nonneg (warnings_eq_nil_iff.1 quiet).2.1 hslots
  refine ⟨fun hfew => ?_, fun hslots => ?_⟩
  · have hmost : (slots : ℚ) ≤ 1801439850948198 := by exact_mod_cast (by omega)
    have hlt : ((c.admission.scheduler.policy.allocation slots).total : ℚ) < slots + 1 := by
      refine (hbound (by omega)).trans_lt ?_
      norm_num [roundingUnit]
      linarith
    exact Nat.le_of_lt_succ (by exact_mod_cast hlt)
  · have hmost : (slots : ℚ) ≤ 4503599627370496 := by exact_mod_cast (by omega)
    have hlt : ((c.admission.scheduler.policy.allocation slots).total : ℚ) < slots + 3 := by
      refine (hbound (by omega)).trans_lt ?_
      norm_num [roundingUnit]
      linarith
    exact Nat.le_of_lt_succ (by exact_mod_cast hlt)

/-- Two halves, each one unit in the last place too great, are within the tolerance. -/
theorem halves_within_slots :
    let c := weighted ⟨0.5000000000000001, 0.5000000000000001, 0⟩
    let policy := c.admission.scheduler.policy
    c.warnings = [] ∧ (∀ t, 0.0 ≤ policy.weight.get t) ∧
      5 * 1801439850948198 ≤ 2 ^ 53 ∧ 4503599627370495 < 2 ^ 52 ∧
      (policy.allocation 1801439850948198).total ≤ 1801439850948198 ∧
      (policy.allocation 4503599627370495).total ≤ 4503599627370495 + 2 := by
  have quiet : (weighted ⟨0.5000000000000001, 0.5000000000000001, 0⟩).warnings = [] :=
    warnings_weighted (by decide +kernel)
  have nonneg (t : Tier) : 0.0 ≤ (weighted
      ⟨0.5000000000000001, 0.5000000000000001, 0⟩).admission.scheduler.policy.weight.get t := by
    cases t <;> decide +kernel
  have few : 5 * 1801439850948198 ≤ 2 ^ 53 := by decide
  have many : 4503599627370495 < 2 ^ 52 := by decide
  exact ⟨quiet, nonneg, few, many, (allocation_within_slots quiet nonneg).1 few,
    (allocation_within_slots quiet nonneg).2 many⟩

/-- From more than `2 * 10 ^ 15` slots on the roundings may add a slot, and near `2 ^ 52` slots two.
A negative weight passes the check, and the others then share out more slots than there are. -/
theorem allocation_exceeds_slots :
    let halves := weighted ⟨0.5000000000000001, 0.5000000000000001, 0⟩
    let early := weighted ⟨0.4390586498077876, 0.5585717591439254, 0.002369591048287378⟩
    let late := weighted ⟨0.6909185193134421, 0.3028733049585736, 0.00620817572798471⟩
    let negative := weighted ⟨2, -1, 0⟩
    (halves.warnings = [] ∧ 4503599627370495 < 2 ^ 52 ∧
      (halves.admission.scheduler.policy.allocation 4503599627370495).total =
        4503599627370495 + 1) ∧
    (early.warnings = [] ∧
      (early.admission.scheduler.policy.allocation 2096050529292699).total =
        2096050529292699 + 1) ∧
    (late.warnings = [] ∧ 4503599627370259 < 2 ^ 52 ∧
      (late.admission.scheduler.policy.allocation 4503599627370259).total =
        4503599627370259 + 2) ∧
    negative.warnings = [] ∧
      (negative.admission.scheduler.policy.allocation 10).total = 20 := by
  refine ⟨⟨warnings_weighted ?_, ?_, ?_⟩, ⟨warnings_weighted ?_, ?_⟩,
    ⟨warnings_weighted ?_, ?_, ?_⟩, warnings_weighted ?_, ?_⟩
  all_goals decide +kernel

end GatewayConfig

end TieredAdmission

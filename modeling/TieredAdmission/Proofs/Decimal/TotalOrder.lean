import TieredAdmission.Proofs.Decimal.Layout

/-!
# The total order of doubles

The key of a double counts the doubles between it and zero, so among doubles that have a value the
keys are in the order of the values. Only a negative zero has a key of its own below that of zero.
Sums keep the order: a greater second summand does not make the key of the sum smaller.
-/

namespace TieredAdmission.Decimal

open Float.Model Float.Model.UnpackedFloat Double

variable {x y z : Float} {a b c : ℚ} {s t : Sign} {m m' : Nat} {e e' : Int} {negative : Bool}
  {hm : 0 < m} {hm' : 0 < m'}

/-! ### Keys -/

/-- How many doubles lie between zero and a number of this mantissa and exponent. -/
def rank (m : Nat) (e : Int) : Int := (e + 1074) * 2 ^ 52 + m

private theorem totalKey_of_binary (h : Binary.ofFloat x = .finite negative m e) :
    totalKey x = (if negative then -rank m e - 1 else rank m e) ∧
      0 ≤ rank m e ∧ rank m e < 2047 * 2 ^ 52 := by
  have hbits : x.toBits.toNat < 2 ^ 64 := x.toBits.toNat_lt
  have h52 : twoTo 52 = 4503599627370496 := rfl
  have h63 : twoTo 63 = 9223372036854775808 := rfl
  unfold Binary.ofFloat at h
  unfold totalKey rank
  dsimp only at h ⊢
  rw [h52, h63] at h
  rw [h63]
  generalize x.toBits.toNat = b at *
  split at h
  · split at h <;> cases h
  · split at h
    · obtain ⟨rfl, rfl, rfl⟩ := Binary.finite.inj h
      by_cases hneg : b / 9223372036854775808 = 1
      · simp only [hneg, beq_self_eq_true, if_true]
        omega
      · simp only [hneg, beq_iff_eq, if_false]
        omega
    · obtain ⟨rfl, rfl, rfl⟩ := Binary.finite.inj h
      by_cases hneg : b / 9223372036854775808 = 1
      · simp only [hneg, beq_self_eq_true, if_true]
        omega
      · simp only [hneg, beq_iff_eq, if_false]
        omega

theorem totalKey_of_infinity (h : x.toModel.unpack = .infinity .positive) :
    totalKey x = 2047 * 2 ^ 52 := by
  have hbinary : Binary.ofFloat x = .infinite false := by
    rw [binary_ofFloat, h]
    rfl
  have hbits : x.toBits.toNat < 2 ^ 64 := x.toBits.toNat_lt
  have h52 : twoTo 52 = 4503599627370496 := rfl
  have h63 : twoTo 63 = 9223372036854775808 := rfl
  unfold Binary.ofFloat at hbinary
  unfold totalKey
  dsimp only at hbinary ⊢
  rw [h52, h63] at hbinary
  rw [h63]
  generalize x.toBits.toNat = b at *
  split at hbinary
  · split at hbinary
    · have hsign := Binary.infinite.inj hbinary
      have hneg : b / 9223372036854775808 ≠ 1 := fun h => by simp [h] at hsign
      split <;> omega
    · cases hbinary
  · split at hbinary <;> cases hbinary

private theorem totalKey_of_finite (h : x.toModel.unpack = .finite s m e hm) :
    totalKey x = (if isNegative s then -rank m e - 1 else rank m e) ∧
      0 ≤ rank m e ∧ rank m e < 2047 * 2 ^ 52 :=
  totalKey_of_binary (by rw [binary_ofFloat, h]; rfl)

theorem totalKey_of_positive (h : x.toModel.unpack = .finite .positive m e hm) :
    totalKey x = rank m e ∧ 0 ≤ rank m e ∧ rank m e < 2047 * 2 ^ 52 := totalKey_of_finite h

theorem totalKey_of_negative (h : x.toModel.unpack = .finite .negative m e hm) :
    totalKey x = -rank m e - 1 ∧ 0 ≤ rank m e ∧ rank m e < 2047 * 2 ^ 52 := totalKey_of_finite h

private theorem totalKey_of_zero (h : x.toModel.unpack = .zero s) :
    totalKey x = if isNegative s then -1 else 0 := by
  have hkey := totalKey_of_binary (x := x) (by rw [binary_ofFloat, h]; rfl)
  rw [hkey.1, rank]
  rfl

theorem totalKey_zero_cases (h : x.toModel.unpack = .zero s) :
    totalKey x = -1 ∧ s = .negative ∨ totalKey x = 0 ∧ s = .positive := by
  rw [totalKey_of_zero h]
  cases s
  · exact Or.inl ⟨rfl, rfl⟩
  · exact Or.inr ⟨rfl, rfl⟩

private theorem rank_le_rank (h : Canonical (.finite s m e hm))
    (h' : Canonical (.finite t m' e' hm'))
    (hle : (m : ℚ) * 2 ^ e ≤ m' * 2 ^ e') : rank m e ≤ rank m' e' := by
  have hlt : m < 2 ^ 53 := h.1
  rcases lt_trichotomy e e' with hlow | rfl | hhigh
  · have hlong : 2 ^ 52 ≤ m' := h'.2.2.resolve_right (by have := h.2.1; omega)
    unfold rank
    omega
  · rw [mul_le_mul_iff_of_pos_right (by positivity)] at hle
    have hmantissa : m ≤ m' := by exact_mod_cast hle
    unfold rank
    omega
  · refine absurd ((magnitude_lt_iff h' h).2 ?_) (not_lt.2 hle)
    rw [Int.compare_eq_lt.2 hhigh]
    rfl

theorem sign_cases (hx : value? x = some a) :
    (∃ m e hm, x.toModel.unpack = .finite .negative m e hm ∧ a = -((m : ℚ) * 2 ^ e)) ∨
      (∃ s, x.toModel.unpack = .zero s ∧ a = 0) ∨
      ∃ m e hm, x.toModel.unpack = .finite .positive m e hm ∧ a = m * 2 ^ e := by
  obtain ⟨s, hf⟩ | ⟨s, m, e, hm, hf⟩ := zero_or_finite hx
  · rw [value?, hf] at hx
    exact Or.inr (Or.inl ⟨s, hf, (Option.some.inj hx).symm⟩)
  · rw [value?, hf] at hx
    cases s with
    | negative => exact Or.inl ⟨m, e, hm, hf, (Option.some.inj hx).symm⟩
    | positive => exact Or.inr (Or.inr ⟨m, e, hm, hf, (Option.some.inj hx).symm⟩)

private theorem totalKey_le_infinity (hx : value? x = some a)
    (hy : y.toModel.unpack = .infinity .positive) : totalKey x ≤ totalKey y := by
  rw [totalKey_of_infinity hy]
  obtain ⟨m, e, hm, hf, -⟩ | ⟨s, hf, -⟩ | ⟨m, e, hm, hf, -⟩ := sign_cases hx
  · have := totalKey_of_negative hf
    omega
  · have := totalKey_zero_cases hf
    omega
  · have := totalKey_of_positive hf
    omega

/-- Keys are in the order of the values, but for a negative zero. -/
theorem totalKey_le_totalKey (hx : value? x = some a) (hy : value? y = some b) (hab : a ≤ b)
    (hzero : y.toModel.unpack ≠ .zero .negative) : totalKey x ≤ totalKey y := by
  have hcanonical := canonical_unpacked x
  have hcanonical' := canonical_unpacked y
  obtain ⟨m, e, hm, hf, rfl⟩ | ⟨s, hf, rfl⟩ | ⟨m, e, hm, hf, rfl⟩ := sign_cases hx
  · have hkey := totalKey_of_negative hf
    obtain ⟨m', e', hm', hg, rfl⟩ | ⟨t, hg, rfl⟩ | ⟨m', e', hm', hg, rfl⟩ := sign_cases hy
    · have hkey' := totalKey_of_negative hg
      rw [hf] at hcanonical
      rw [hg] at hcanonical'
      have := rank_le_rank hcanonical' hcanonical (by linarith)
      omega
    · have := totalKey_zero_cases hg
      omega
    · have := totalKey_of_positive hg
      omega
  · have hkey := totalKey_zero_cases hf
    obtain ⟨m', e', hm', hg, rfl⟩ | ⟨t, hg, rfl⟩ | ⟨m', e', hm', hg, rfl⟩ := sign_cases hy
    · have hneg : (0 : ℚ) < m' * 2 ^ e' := by positivity
      linarith
    · have hpositive := (totalKey_zero_cases hg).resolve_left fun h => hzero (h.2 ▸ hg)
      omega
    · have := totalKey_of_positive hg
      omega
  · have hpos : (0 : ℚ) < m * 2 ^ e := by positivity
    obtain ⟨m', e', hm', hg, rfl⟩ | ⟨t, hg, rfl⟩ | ⟨m', e', hm', hg, rfl⟩ := sign_cases hy
    · have hneg : (0 : ℚ) < m' * 2 ^ e' := by positivity
      linarith
    · linarith
    · rw [hf] at hcanonical
      rw [hg] at hcanonical'
      rw [(totalKey_of_positive hf).1, (totalKey_of_positive hg).1]
      exact rank_le_rank hcanonical hcanonical' hab

/-! ### Sums -/

private theorem add_congr (h : UnpackedFloat.add Format.binary64 x.toModel.unpack y.toModel.unpack =
    UnpackedFloat.add Format.binary64 x.toModel.unpack z.toModel.unpack) : x + y = x + z :=
  congrArg (fun f => Float.ofModel (Float.Model.pack f)) h

/-- What has no value absorbs what has one. -/
theorem add_of_no_value (hx : value? x = none) (hy : value? y = some b) :
    UnpackedFloat.add Format.binary64 x.toModel.unpack y.toModel.unpack = x.toModel.unpack := by
  rw [value?] at hx
  obtain ⟨t, hg⟩ | ⟨t, m', e', hm', hg⟩ := zero_or_finite hy <;> rw [hg] <;>
    cases hf : x.toModel.unpack with
    | infinity s => rfl
    | notANumber => rfl
    | zero s => rw [hf] at hx; cases hx
    | finite s m e hm => rw [hf] at hx; cases hx

/-- Only upwards can the sum with a double that is not negative grow too great. -/
theorem exceeds_of_add (hx : value? x = some a) (hy : value? y = some b) (hb : 0 ≤ b)
    (h : value? (x + y) = none) : (2 ^ 53 - 1 / 2) * 2 ^ (971 : Int) ≤ a + b := by
  have hsum := (rounded_add hx hy).value?_eq_none_iff.1 h
  have hself : ¬ (2 ^ 53 - 1 / 2) * 2 ^ (971 : Int) ≤ |a| := fun hgreat => by
    rw [← (rounded_self hx).value?_eq_none_iff, hx] at hgreat
    cases hgreat
  rcases le_abs.1 hsum with hpos | hneg
  · exact hpos
  · exact absurd (hneg.trans (by linarith [neg_abs_le a])) hself

/-- A greater second summand does not make the sum smaller. -/
theorem totalKey_add_le (hy : value? y = some b) (hz : value? z = some c) (hb : 0 ≤ b)
    (hbc : b ≤ c) (hzero : z.toModel.unpack ≠ .zero .negative) (x : Float) :
    totalKey (x + y) ≤ totalKey (x + z) := by
  cases hx : value? x with
  | none =>
    have hsame : x + y = x + z :=
      add_congr ((add_of_no_value hx hy).trans (add_of_no_value hx hz).symm)
    rw [hsame]
  | some a =>
    have hxy := rounded_add hx hy
    have hxz := rounded_add hx hz
    cases hsum : value? (x + y) with
    | none =>
      have hgreat := exceeds_of_add hx hy hb hsum
      rw [totalKey_of_infinity (hxy.eq_infinity hgreat),
        totalKey_of_infinity (hxz.eq_infinity (hgreat.trans (by linarith)))]
    | some d =>
      cases hsum' : value? (x + z) with
      | none =>
        exact totalKey_le_infinity hsum
          (hxz.eq_infinity (exceeds_of_add hx hz (hb.trans hbc) hsum'))
      | some d' =>
        exact totalKey_le_totalKey hsum hsum' (hxy.mono hxz hsum hsum' (by linarith))
          fun h => hzero (eq_negZero_of_add hx hz h).2

end TieredAdmission.Decimal

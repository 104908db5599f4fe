import TieredAdmission.Proofs.Double.Operations

/-!
# The nearest double

Of all canonical numbers, those with exponents too great for a double included, the rounding of a
number is the one nearest to it, and of two that are equally near it is the one with the even
mantissa. So a number has only one rounding, and a greater number no smaller one.
-/

namespace TieredAdmission.Double

open Float.Model Float.Model.UnpackedFloat

variable {f g : UnpackedFloat} {x y r z : ℚ} {k t e : Int} {s : Sign} {m : Nat} {hm : 0 < m}

def IsEven : UnpackedFloat → Prop
  | .finite _ m _ _ => Even m
  | .zero _ | .infinity _ | .notANumber => True

/-! ### Multiples of a place -/

namespace NextTo

private theorem place_le_sub {j : Int} (hne : j ≠ k) :
    (2 : ℚ) ^ t ≤ |(j : ℚ) * 2 ^ t - k * 2 ^ t| := by
  have hplace : (0 : ℚ) < 2 ^ t := by positivity
  have hone : (1 : ℚ) ≤ |((j - k : Int) : ℚ)| := by
    exact_mod_cast Int.one_le_abs (sub_ne_zero.2 hne)
  rw [← sub_mul, abs_mul, abs_of_pos hplace, ← Int.cast_sub]
  linarith [mul_le_mul_of_nonneg_right hone hplace.le]

/-- Another multiple is further away, or equally far, and then it is the next one and odd. -/
theorem closer (h : NextTo k t x) {j : Int} (hne : j ≠ k) :
    |(k : ℚ) * 2 ^ t - x| < |(j : ℚ) * 2 ^ t - x| ∨
      |(k : ℚ) * 2 ^ t - x| = |(j : ℚ) * 2 ^ t - x| ∧ Even k ∧ Odd j := by
  have hplace : (0 : ℚ) < 2 ^ t := by positivity
  have hapart : (2 : ℚ) ^ t ≤ |(j : ℚ) * 2 ^ t - k * 2 ^ t| := place_le_sub hne
  have htriangle : |(j : ℚ) * 2 ^ t - k * 2 ^ t| ≤
      |(j : ℚ) * 2 ^ t - x| + |(k : ℚ) * 2 ^ t - x| := by
    rw [abs_sub_comm ((k : ℚ) * 2 ^ t) x]
    exact abs_sub_le _ _ _
  have hhalf := h.half
  refine (lt_or_ge |(k : ℚ) * 2 ^ t - x| |(j : ℚ) * 2 ^ t - x|).imp_right fun hle => ?_
  -- both are half a place away, so they are one place apart
  have hk : |(k : ℚ) * 2 ^ t - x| = 2 ^ t / 2 := by linarith
  have hj : |(j : ℚ) * 2 ^ t - x| = 2 ^ t / 2 := by linarith
  have heven := h.even hk
  have hone : |((j - k : Int) : ℚ)| * 2 ^ t ≤ 1 * 2 ^ t := by
    rw [Int.cast_sub, ← abs_of_pos hplace, ← abs_mul, abs_of_pos hplace, sub_mul]
    linarith
  have hnext : |j - k| ≤ 1 := by exact_mod_cast le_of_mul_le_mul_right hone hplace
  have hodd : Odd (j - k) := by
    have : j - k ≠ 0 := sub_ne_zero.2 hne
    rcases abs_le.1 hnext with ⟨hlow, hhigh⟩
    obtain h1 | h1 : j - k = 1 ∨ j - k = -1 := by omega
    · rw [h1]
      exact odd_one
    · rw [h1]
      exact odd_neg_one
  exact ⟨hk.trans hj.symm, heven, by simpa using hodd.add_even heven⟩

/-- What has fewer bits than all multiples of the place that matter is further away. -/
theorem closer_of_small (h : NextTo k t x) (hz : |z| < 2 ^ (t + 52)) (ht : t ≠ -1074) :
    |(k : ℚ) * 2 ^ t - x| < |z - x| := by
  have hlow := h.low.resolve_left ht
  have hbits : (2 : ℚ) ^ (t + 52) = ((2 ^ 52 : Int) : ℚ) * 2 ^ t := by
    rw [add_comm, zpow_add₀ two_ne_zero]
    norm_num
  -- the smallest multiple with all bits lies between
  obtain ⟨j, hj⟩ : ∃ j : Int, |(j : ℚ) * 2 ^ t - x| = |x| - 2 ^ (t + 52) := by
    rcases le_total 0 x with hx | hx
    · refine ⟨2 ^ 52, ?_⟩
      rw [abs_of_nonneg hx] at hlow ⊢
      rw [← hbits, abs_sub_comm, abs_of_nonneg (by linarith)]
    · refine ⟨-2 ^ 52, ?_⟩
      rw [abs_of_nonpos hx] at hlow ⊢
      rw [Int.cast_neg, neg_mul, ← hbits, abs_of_nonneg (by linarith)]
      ring
  have hle : |(k : ℚ) * 2 ^ t - x| ≤ |(j : ℚ) * 2 ^ t - x| := by
    rcases eq_or_ne j k with rfl | hne
    · exact le_rfl
    · exact (h.closer hne).elim le_of_lt fun heq => heq.1.le
  have hfar : |x| - |z| ≤ |z - x| := by
    rw [abs_sub_comm]
    exact abs_sub_abs_le_abs_sub x z
  linarith

end NextTo

/-! ### The nearest of the canonical numbers -/

private theorem exponent_le_or_small (h : Canonical (.finite s m e hm)) (t : Int) :
    (∃ n : Nat, e = t + n) ∨ t ≠ -1074 ∧ |signed s ((m : ℚ) * 2 ^ e)| < 2 ^ (t + 52) := by
  refine (le_or_gt t e).imp (fun hle => ⟨(e - t).toNat, by omega⟩) fun hlt => ?_
  have hlong : (m : ℚ) < 2 ^ 53 := by exact_mod_cast h.1
  have hbits : (2 : ℚ) ^ (53 : Int) = 2 ^ 53 := by norm_num
  refine ⟨by have := h.2.1; omega, ?_⟩
  rw [abs_signed, abs_of_nonneg (by positivity)]
  calc (m : ℚ) * 2 ^ e
    _ < 2 ^ 53 * 2 ^ e := mul_lt_mul_of_pos_right hlong (by positivity)
    _ = 2 ^ (53 + e) := by rw [zpow_add₀ two_ne_zero, hbits]
    _ ≤ 2 ^ (t + 52) := zpow_le_zpow_right₀ one_le_two (by omega)

/-- The mantissa of a rounded number is even if it is an even multiple of the place. -/
theorem isEven_of_even (h : Canonical f) (hf : valueOf? f = some ((k : ℚ) * 2 ^ t)) (hk : Even k)
    (hbits : |k| ≤ 2 ^ 53) (ht : -1074 ≤ t) : IsEven f := by
  cases f with
  | zero s => trivial
  | infinity s => trivial
  | notANumber => trivial
  | finite s m e hm =>
    have habs : (m : ℚ) * 2 ^ e = |(k : ℚ)| * 2 ^ t := by
      have hsize := congrArg (fun q : ℚ => |q|) (Option.some.inj hf)
      rwa [abs_signed, abs_of_nonneg (by positivity), abs_mul,
        abs_of_pos (by positivity : (0 : ℚ) < 2 ^ t)] at hsize
    rw [← Int.cast_abs] at habs
    rcases le_or_gt e t with hle | hgt
    · obtain ⟨n, rfl⟩ : ∃ n : Nat, t = e + n := ⟨(t - e).toNat, by omega⟩
      rw [zpow_add₀ two_ne_zero, zpow_natCast, mul_comm ((2 : ℚ) ^ e), ← mul_assoc,
        mul_left_inj' (by positivity)] at habs
      have hwhole : (m : Int) = |k| * 2 ^ n := by exact_mod_cast habs
      have heven : Even (m : Int) := hwhole ▸ (even_abs.2 hk).mul_right _
      exact_mod_cast heven
    · -- the multiple is one bit longer than a mantissa, so it is the least with so many bits
      obtain ⟨n, rfl⟩ : ∃ n : Nat, e = t + 1 + n := ⟨(e - t - 1).toNat, by omega⟩
      rw [zpow_add₀ two_ne_zero, zpow_add_one₀ two_ne_zero, zpow_natCast] at habs
      have hscaled : (m : ℚ) * 2 * 2 ^ n = |k| := by
        refine mul_right_cancel₀ (by positivity : (2 : ℚ) ^ t ≠ 0) ?_
        rw [← habs]
        ring
      have hwhole : (m : Int) * 2 * 2 ^ n = |k| := by exact_mod_cast hscaled
      have hlong : 2 ^ 52 ≤ m := h.2.2.resolve_right (by omega)
      have hone : (1 : Int) ≤ 2 ^ n := one_le_pow₀ one_le_two
      obtain rfl : m = 2 ^ 52 := by nlinarith
      exact ⟨2 ^ 51, rfl⟩

namespace Rounds

/-- Another canonical number is further away, or equally far, and then its mantissa is odd while
that of the rounding is even. -/
theorem closer (h : Rounds f x) (hf : valueOf? f = some r) (hg : Canonical g)
    (hz : valueOf? g = some z) (hne : z ≠ r) :
    |r - x| < |z - x| ∨ |r - x| = |z - x| ∧ IsEven f ∧ ¬ IsEven g := by
  obtain ⟨k, t, hvalue, hnext⟩ := h.nearest
  obtain rfl := Option.some.inj (hf.symm.trans hvalue)
  have hmultiple {j : Int} (hj : z = j * 2 ^ t) (hodd : Odd j → ¬ IsEven g) :
      |(k : ℚ) * 2 ^ t - x| < |z - x| ∨
        |(k : ℚ) * 2 ^ t - x| = |z - x| ∧ IsEven f ∧ ¬ IsEven g := by
    have hjk : j ≠ k := by
      rintro rfl
      exact hne hj
    rw [hj]
    exact (hnext.closer hjk).imp_right fun ⟨heq, heven, hj⟩ =>
      ⟨heq, isEven_of_even h.canonical hvalue heven hnext.bits hnext.least, hodd hj⟩
  cases g with
  | infinity s => cases hz
  | notANumber => cases hz
  | zero s =>
    obtain rfl := Option.some.inj hz
    exact hmultiple (j := 0) (by simp) fun hodd => by simp at hodd
  | finite s m e hm =>
    obtain rfl := Option.some.inj hz
    rcases exponent_le_or_small hg t with ⟨n, rfl⟩ | ⟨ht, hsmall⟩
    · refine hmultiple (j := s.apply (m * 2 ^ n)) ?_ fun hodd heven => ?_
      · rw [apply_mul, zpow_add₀ two_ne_zero, zpow_natCast]
        push_cast
        ring_nf
      · have heven' : Even (m * 2 ^ n) := heven.mul_right _
        exact Int.not_even_iff_odd.2 hodd (even_apply s (Nat.even_iff.1 heven'))
    · exact Or.inl (hnext.closer_of_small hsmall ht)

theorem le_distance (h : Rounds f x) (hf : valueOf? f = some r) (hg : Canonical g)
    (hz : valueOf? g = some z) : |r - x| ≤ |z - x| := by
  rcases eq_or_ne z r with rfl | hne
  · exact le_rfl
  · exact (h.closer hf hg hz hne).elim le_of_lt fun heq => heq.1.le

/-- A number has one rounding. -/
theorem unique (h : Rounds f x) (hf : valueOf? f = some r) (hg : Rounds g x)
    (hz : valueOf? g = some z) : r = z := by
  by_contra hne
  rcases h.closer hf hg.canonical hz (Ne.symm hne) with hlt | ⟨-, heven, hodd⟩
  · exact not_le.2 hlt (hg.le_distance hz h.canonical hf)
  · rcases hg.closer hz h.canonical hf hne with hlt | ⟨-, heven', -⟩
    · exact not_le.2 hlt (h.le_distance hf hg.canonical hz)
    · exact hodd heven'

/-- A greater number has no smaller rounding. -/
theorem mono (h : Rounds f x) (hf : valueOf? f = some r) (hg : Rounds g y)
    (hz : valueOf? g = some z) (hxy : x ≤ y) : r ≤ z := by
  by_contra hnot
  have hlt : z < r := not_le.1 hnot
  -- the first number is not below the middle of the two roundings, nor the second above it
  have hx : r + z ≤ 2 * x := by
    have hle := h.le_distance hf hg.canonical hz
    rcases abs_cases (r - x) with hr | hr <;> rcases abs_cases (z - x) with hz | hz <;> linarith
  have hy : 2 * y ≤ r + z := by
    have hle := hg.le_distance hz h.canonical hf
    rcases abs_cases (r - y) with hr | hr <;> rcases abs_cases (z - y) with hz | hz <;> linarith
  obtain rfl : x = y := by linarith
  exact hlt.ne' (h.unique hf hg hz)

end Rounds

/-! ### Numbers too great for a double -/

theorem limit_eq : (2 : ℚ) ^ (1024 : Int) = 2 ^ 53 * 2 ^ (971 : Int) := by
  have hbits : (2 : ℚ) ^ (53 : Int) = 2 ^ 53 := by norm_num
  rw [← hbits, ← zpow_add₀ two_ne_zero]
  rfl

theorem limit_le (h : Canonical (.finite s m e hm)) (he : 972 ≤ e) :
    (2 : ℚ) ^ (1024 : Int) ≤ m * 2 ^ e := by
  have hlong : (2 : ℚ) ^ (52 : Int) ≤ m := by exact_mod_cast h.2.2.resolve_right (by omega)
  calc (2 : ℚ) ^ (1024 : Int)
    _ = 2 ^ (52 : Int) * 2 ^ (972 : Int) := zpow_add₀ two_ne_zero 52 972
    _ ≤ m * 2 ^ e :=
      mul_le_mul hlong (zpow_le_zpow_right₀ one_le_two he) (by positivity) (by positivity)

theorem le_greatest (h : Canonical (.finite s m e hm)) (he : e < 972) :
    (m : ℚ) * 2 ^ e ≤ (2 ^ 53 - 1) * 2 ^ (971 : Int) := by
  have hlong : (m : ℚ) ≤ 2 ^ 53 - 1 := by
    have : (m : ℚ) + 1 ≤ 2 ^ 53 := by exact_mod_cast h.1
    linarith
  exact mul_le_mul hlong (zpow_le_zpow_right₀ one_le_two (by omega)) (by positivity) (by norm_num)

theorem limit_le_iff (h : Canonical (.finite s m e hm)) :
    (2 : ℚ) ^ (1024 : Int) ≤ m * 2 ^ e ↔ 972 ≤ e := by
  refine ⟨fun hgreat => ?_, limit_le h⟩
  by_contra hsmall
  have hplace : (0 : ℚ) < 2 ^ (971 : Int) := by positivity
  have hlast := le_greatest h (not_le.1 hsmall)
  rw [limit_eq] at hgreat
  generalize (2 : ℚ) ^ (971 : Int) = u at *
  linarith

private theorem exists_signed (x : ℚ) : ∃ s, x = signed s |x| := by
  rcases le_total 0 x with hx | hx
  · exact ⟨.positive, (abs_of_nonneg hx).symm⟩
  · exact ⟨.negative, by rw [abs_of_nonpos hx, signed, neg_neg]⟩

private theorem le_greatest_of_lt_limit (h : Canonical f) (hf : valueOf? f = some r)
    (hlt : |r| < 2 ^ (1024 : Int)) : |r| ≤ (2 ^ 53 - 1) * 2 ^ (971 : Int) := by
  cases f with
  | infinity s => cases hf
  | notANumber => cases hf
  | zero s =>
    obtain rfl := Option.some.inj hf
    rw [abs_zero]
    exact mul_nonneg (by norm_num) (by positivity)
  | finite s m e hm =>
    obtain rfl := Option.some.inj hf
    rw [abs_signed, abs_of_nonneg (by positivity)] at hlt ⊢
    exact le_greatest h (not_le.1 fun he => not_le.2 hlt (limit_le h he))

/-- A number is rounded to one too great for a double from half a place above the greatest double
on. -/
theorem Rounds.limit_le_iff (h : Rounds f x) (hf : valueOf? f = some r) :
    (2 : ℚ) ^ (1024 : Int) ≤ |r| ↔ (2 ^ 53 - 1 / 2) * 2 ^ (971 : Int) ≤ |x| := by
  obtain ⟨s, hs⟩ := exists_signed x
  have hdistance (z : ℚ) : |signed s z - x| = |z - (|x|)| := by
    conv_lhs => rw [hs]
    exact abs_signed_sub s z |x|
  have hfar := abs_sub_abs_le_abs_sub r x
  have hfar' := abs_sub_abs_le_abs_sub x r
  rw [abs_sub_comm x r] at hfar'
  rw [limit_eq]
  have hplace : (0 : ℚ) < 2 ^ (971 : Int) := by positivity
  constructor
  · intro hgreat
    -- the greatest double is no nearer
    have hle := h.le_distance hf (g := .finite s (2 ^ 53 - 1) 971 (by norm_num))
      ⟨by norm_num, by norm_num, Or.inl (by norm_num)⟩ rfl
    have hgreatest : ((2 ^ 53 - 1 : Nat) : ℚ) = 2 ^ 53 - 1 := by norm_num
    rw [hdistance, hgreatest] at hle
    generalize (2 : ℚ) ^ (971 : Int) = u at *
    rcases abs_cases ((2 ^ 53 - 1) * u - (|x|)) with hz | hz <;> linarith
  · intro hgreat
    by_contra hsmall
    have hlast := le_greatest_of_lt_limit h.canonical hf (by rw [limit_eq]; exact not_le.1 hsmall)
    -- the number after the greatest double is strictly further away, as its mantissa is even
    have heven : IsEven (.finite s (2 ^ 52) 972 (by norm_num)) := ⟨2 ^ 51, rfl⟩
    have hnext : ((2 ^ 52 : Nat) : ℚ) * 2 ^ (972 : Int) = 2 ^ 53 * 2 ^ (971 : Int) := by
      rw [show (972 : Int) = 971 + 1 by norm_num, zpow_add_one₀ two_ne_zero]
      generalize (2 : ℚ) ^ (971 : Int) = u
      push_cast
      ring
    have hne : signed s (((2 ^ 52 : Nat) : ℚ) * 2 ^ (972 : Int)) ≠ r := by
      rintro rfl
      rw [hnext, abs_signed, abs_of_nonneg (by positivity)] at hsmall
      exact hsmall le_rfl
    have hlt := (h.closer hf (g := .finite s (2 ^ 52) 972 (by norm_num))
      ⟨by norm_num, by norm_num, Or.inl le_rfl⟩ rfl hne).resolve_right fun heq => heq.2.2 heven
    rw [hdistance, hnext] at hlt
    generalize (2 : ℚ) ^ (971 : Int) = u at *
    rcases abs_cases (2 ^ 53 * u - (|x|)) with hz | hz <;> linarith

end TieredAdmission.Double

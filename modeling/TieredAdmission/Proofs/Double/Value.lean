import TieredAdmission.Proofs.Double.Nearest

/-!
# The exact values of doubles

A finite double has a rational value. An operation gives the double nearest to the exact result, or
an infinite one where that is too great; comparisons and the conversion to whole numbers agree with
the values. Sums of numbers that are not negative can be traced back: where such a sum is finite, so
are its parts, and they add up to little more than it.
-/

namespace TieredAdmission.Double

open Float.Model Float.Model.UnpackedFloat

/-- The exact value of a double. The infinities have none, and neither has what is not a number. -/
def value? (x : Float) : Option ℚ := valueOf? x.toModel.unpack

/-- The double is the rounding of the number, stored. -/
def Rounded (x : Float) (a : ℚ) : Prop := ∃ f, Rounds f a ∧ x.toModel.unpack = stored f

variable {x y : Float} {a b c : ℚ} {s t : Sign} {m m' : Nat} {e e' : Int} {f g : UnpackedFloat}

theorem canonical_unpacked (x : Float) : Canonical x.toModel.unpack := canonical_unpack _

theorem zero_or_finite (hf : valueOf? f = some a) :
    (∃ s, f = .zero s) ∨ ∃ s m e hm, f = .finite s m e hm := by
  cases f with
  | infinity s => cases hf
  | notANumber => cases hf
  | zero s => exact Or.inl ⟨s, rfl⟩
  | finite s m e hm => exact Or.inr ⟨s, m, e, hm, rfl⟩

/-! ### Storing -/

private theorem stored_eq_self (h : Canonical f) (hf : valueOf? f = some a)
    (hlt : |a| < 2 ^ (1024 : Int)) : stored f = f := by
  cases f with
  | finite s m e hm =>
    obtain rfl := Option.some.inj hf
    rw [abs_signed, abs_of_nonneg (by positivity)] at hlt
    exact if_neg fun hgreat => not_le.2 hlt (limit_le h hgreat)
  | zero s => rfl
  | infinity s => rfl
  | notANumber => rfl

private theorem stored_of_nonneg (hf : valueOf? f = some a) (ha : 0 ≤ a) :
    stored f = .infinity .positive ∨ stored f = f := by
  cases f with
  | finite s m e hm =>
    rw [stored]
    split
    · obtain rfl := Option.some.inj hf
      cases s with
      | positive => exact Or.inl rfl
      | negative => exact absurd ha (not_le.2 (neg_lt_zero.2 (by positivity)))
    · exact Or.inr rfl
  | zero s => exact Or.inr rfl
  | infinity s => exact Or.inr rfl
  | notANumber => exact Or.inr rfl

theorem Rounded.error (h : Rounded x a) (hlt : |a| < 2 ^ (1023 : Int)) :
    ∃ b, value? x = some b ∧ |b - a| ≤ max (|a| / 2 ^ 53) (2 ^ (-1075 : Int)) := by
  obtain ⟨f, hf, hstored⟩ := h
  obtain ⟨b, hb, herror⟩ := hf.error
  have hsmall : |b| < 2 ^ (1024 : Int) := by
    have hmax : max (|a| / 2 ^ 53) (2 ^ (-1075 : Int)) ≤ 2 ^ (1023 : Int) := max_le
      ((div_le_self (abs_nonneg a) (by norm_num)).trans hlt.le)
      (zpow_le_zpow_right₀ one_le_two (by norm_num))
    calc |b|
      _ ≤ |a| + |b - a| := by linarith [abs_sub_abs_le_abs_sub b a]
      _ < 2 ^ (1023 : Int) + 2 ^ (1023 : Int) := add_lt_add_of_lt_of_le hlt (herror.trans hmax)
      _ = 2 ^ (1024 : Int) := by rw [← mul_two, ← zpow_add_one₀ two_ne_zero]; rfl
  exact ⟨b, by rw [value?, hstored, stored_eq_self hf.canonical hb hsmall, hb], herror⟩

theorem Rounded.le (h : Rounded x a) (ha : 0 ≤ a) (hlt : a < 2 ^ (1023 : Int)) :
    ∃ b, value? x = some b ∧ b ≤ a + (a / 2 ^ 53 + 2 ^ (-1075 : Int)) := by
  have habs : |a| = a := abs_of_nonneg ha
  obtain ⟨b, hb, herror⟩ := h.error (habs.trans_lt hlt)
  rw [habs] at herror
  have hmax : max (a / 2 ^ 53) (2 ^ (-1075 : Int)) ≤ a / 2 ^ 53 + 2 ^ (-1075 : Int) :=
    max_le_add_of_nonneg (div_nonneg ha (by norm_num)) (zpow_nonneg two_pos.le _)
  exact ⟨b, hb, sub_le_iff_le_add'.1 ((le_abs_self _).trans (herror.trans hmax))⟩

/-- Whole numbers of at most 53 bits are not rounded. -/
theorem Rounded.exact {k : Int} (h : Rounded x k) (hk : |k| < 2 ^ 53) :
    value? x = some (k : ℚ) := by
  obtain ⟨f, hf, hstored⟩ := h
  have hvalue := hf.exact hk (j := 0) (by norm_num) (by simp)
  have hlt : |(k : ℚ)| < 2 ^ (1024 : Int) := by
    calc |(k : ℚ)|
      _ < 2 ^ (53 : Int) := by exact_mod_cast hk
      _ ≤ 2 ^ (1024 : Int) := zpow_le_zpow_right₀ one_le_two (by norm_num)
  rw [value?, hstored, stored_eq_self hf.canonical hvalue hlt, hvalue]

/-! ### The nearest double -/

private theorem stored_eq_of_value (h : valueOf? (stored f) = some a) : stored f = f := by
  cases f with
  | finite s m e hm =>
    rw [stored] at h ⊢
    split at h
    · cases h
    · next hsmall => exact if_neg hsmall
  | zero s => rfl
  | infinity s => rfl
  | notANumber => rfl

private theorem valueOf?_stored_eq_none_iff (h : Canonical f) (hf : valueOf? f = some a) :
    valueOf? (stored f) = none ↔ (2 : ℚ) ^ (1024 : Int) ≤ |a| := by
  obtain ⟨s, rfl⟩ | ⟨s, m, e, hm, rfl⟩ := zero_or_finite hf
  · obtain rfl := Option.some.inj hf
    rw [abs_zero]
    exact iff_of_false (fun hnone => by cases hnone) (not_le.2 (by positivity))
  · obtain rfl := Option.some.inj hf
    rw [abs_signed, abs_of_nonneg (by positivity), limit_le_iff h, stored]
    split <;> simp_all [valueOf?]

theorem stored_eq_infinity (h : Rounds f a) (ha : (2 ^ 53 - 1 / 2) * 2 ^ (971 : Int) ≤ a) :
    stored f = .infinity .positive := by
  have ha0 : 0 ≤ a := le_trans (mul_nonneg (by norm_num) (by positivity)) ha
  obtain ⟨r, hr, hr0⟩ := h.nonneg ha0
  have hnone : valueOf? (stored f) = none := by
    rwa [valueOf?_stored_eq_none_iff h.canonical hr, h.limit_le_iff hr, abs_of_nonneg ha0]
  refine (stored_of_nonneg hr hr0).resolve_right fun hsame => ?_
  rw [hsame, hr] at hnone
  cases hnone

private theorem eq_negZero_of_stored (h : stored f = .zero .negative) : f = .zero .negative :=
  (stored_eq_of_value (a := 0) (by rw [h]; rfl)).symm.trans h

/-- A double is its own rounding. -/
theorem rounded_self (hx : value? x = some a) : Rounded x a :=
  ⟨_, rounds_self (canonical_unpacked x) hx, (stored_unpack _).symm⟩

namespace Rounded

theorem rounds (h : Rounded x a) (hx : value? x = some b) : Rounds x.toModel.unpack a := by
  obtain ⟨f, hf, hstored⟩ := h
  rw [value?, hstored] at hx
  rwa [hstored, stored_eq_of_value hx]

/-- No double is nearer, and one that is equally near has an odd mantissa, where that of the rounded
number is even. -/
theorem closer (h : Rounded x a) (hx : value? x = some b) (hy : value? y = some c) (hne : c ≠ b) :
    |b - a| < |c - a| ∨
      |b - a| = |c - a| ∧ IsEven x.toModel.unpack ∧ ¬ IsEven y.toModel.unpack :=
  (h.rounds hx).closer hx (canonical_unpacked y) hy hne

theorem mono {d : ℚ} (h : Rounded x a) (h' : Rounded y b) (hx : value? x = some c)
    (hy : value? y = some d) (hab : a ≤ b) : c ≤ d :=
  (h.rounds hx).mono hx (h'.rounds hy) hy hab

theorem nonneg (h : Rounded x a) (hx : value? x = some b) (ha : 0 ≤ a) : 0 ≤ b := by
  obtain ⟨r, hr, hr0⟩ := (h.rounds hx).nonneg ha
  obtain rfl : b = r := Option.some.inj (hx.symm.trans hr)
  exact hr0

/-- A number is too great for a double from half a place above the greatest double on. -/
theorem value?_eq_none_iff (h : Rounded x a) :
    value? x = none ↔ (2 ^ 53 - 1 / 2) * 2 ^ (971 : Int) ≤ |a| := by
  obtain ⟨f, hf, hstored⟩ := h
  obtain ⟨k, t, hvalue, -⟩ := hf.nearest
  rw [value?, hstored, valueOf?_stored_eq_none_iff hf.canonical hvalue, hf.limit_le_iff hvalue]

theorem eq_infinity (h : Rounded x a) (ha : (2 ^ 53 - 1 / 2) * 2 ^ (971 : Int) ≤ a) :
    x.toModel.unpack = .infinity .positive := by
  obtain ⟨f, hf, hstored⟩ := h
  exact hstored.trans (stored_eq_infinity hf ha)

end Rounded

/-! ### Operations -/

theorem rounded_of_pack (h : Rounds f a)
    (hx : x.toModel.unpack =
      UnpackedFloat.unpack Format.binary64 (UnpackedFloat.pack Format.binary64 f)) :
    Rounded x a :=
  ⟨f, h, hx.trans (unpack_pack h.canonical)⟩

theorem rounded_mul (hx : value? x = some a) (hy : value? y = some b) : Rounded (x * y) (a * b) :=
  rounded_of_pack (rounds_mul (canonical_unpacked x) (canonical_unpacked y) hx hy) rfl

theorem rounded_div (hx : value? x = some a) (hy : value? y = some b) (hb : b ≠ 0) :
    Rounded (x / y) (a / b) :=
  rounded_of_pack (rounds_div hx hy hb) rfl

theorem rounded_add (hx : value? x = some a) (hy : value? y = some b) : Rounded (x + y) (a + b) :=
  rounded_of_pack (rounds_add (canonical_unpacked x) (canonical_unpacked y) hx hy).1 rfl

theorem rounded_toFloat (n : UInt64) : Rounded n.toFloat n.toNat :=
  rounded_of_pack (rounds_ofNat n.toNat) rfl

/-- Whole numbers of at most 53 bits are converted exactly. -/
theorem value?_toFloat {n : Nat} (h : n < 2 ^ 53) : value? n.toUInt64.toFloat = some (n : ℚ) := by
  have hn : n.toUInt64.toNat = n := Nat.mod_eq_of_lt (by omega)
  have hrounded : Rounded n.toUInt64.toFloat (n : Int) := by
    simpa [hn] using rounded_toFloat n.toUInt64
  simpa using hrounded.exact (by rw [Nat.abs_cast]; exact_mod_cast h)

private theorem roundToInt_le (m : Nat) (e : Int) :
    ((roundToInt .positive m e).toNat : ℚ) ≤ m * 2 ^ e := by
  have hwhole : roundToInt .positive m e =
      (((⟨m <<< (e - 0).toNat, false, false⟩ : ExtendedMantissa) >>>
        (0 - (e - ((e - 0).toNat : Int))).toNat).mantissa : Int) := rfl
  obtain ⟨n, k, hn, hk, he⟩ : ∃ n k : Nat, (e - 0).toNat = n ∧
      (0 - (e - ((e - 0).toNat : Int))).toNat = k ∧ e = n - k := ⟨_, _, rfl, rfl, by omega⟩
  rw [hwhole, hk, hn, (shifted_whole _ _).mantissa, Int.toNat_natCast, Nat.shiftLeft_eq, he,
    zpow_sub₀ two_ne_zero, zpow_natCast, zpow_natCast, mul_div_assoc']
  exact_mod_cast @Nat.cast_div_le ℚ _ _ _ (m * 2 ^ n) (2 ^ k)

/-- The conversion to a whole number drops what is below one. -/
theorem toNat_toUInt64_le (hx : value? x = some a) : (x.toUInt64.toNat : ℚ) ≤ max a 0 := by
  have hclamp (n : Nat) : (UInt64.ofNatClamp n).toNat ≤ n := by
    rw [UInt64.ofNatClamp]
    split
    · exact Nat.le_of_eq UInt64.toNat_ofNatLT
    · rw [UInt64.toNat_ofNatLT]
      omega
  have hwhole : ((toInt 0 (UInt64.size - 1) x.toModel.unpack).toNat : ℚ) ≤ max a 0 := by
    rw [value?] at hx
    obtain ⟨s, hf⟩ | ⟨s, m, e, hm, hf⟩ := zero_or_finite hx
    · rw [hf]
      exact le_max_right a 0
    · rw [hf] at hx ⊢
      obtain rfl := Option.some.inj hx
      cases s with
      | positive => exact le_max_of_le_left (roundToInt_le m e)
      | negative =>
        have hnone : (roundToInt .negative m e).toNat = 0 :=
          Int.toNat_of_nonpos (Int.neg_nonpos_of_nonneg (Int.natCast_nonneg _))
        exact le_max_of_le_right (Nat.cast_nonpos.2 hnone)
  exact le_trans (by exact_mod_cast hclamp _) hwhole

/-! ### Comparisons -/

/-- Canonical numbers are compared by the exponent first. -/
theorem magnitude_lt_iff {hm : 0 < m} {hm' : 0 < m'} (h : Canonical (.finite s m e hm))
    (h' : Canonical (.finite t m' e' hm')) :
    (m : ℚ) * 2 ^ e < m' * 2 ^ e' ↔ (compare e e').then (compare m m') = .lt := by
  have hless {m m' : Nat} {e e' : Int} (hlong : 2 ^ 52 ≤ m') (hm : m < 2 ^ 53) (he : e < e') :
      (m : ℚ) * 2 ^ e < m' * 2 ^ e' := by
    have hm' : (m : ℚ) < 2 ^ 53 := by exact_mod_cast hm
    have hlong' : (2 : ℚ) ^ 52 ≤ m' := by exact_mod_cast hlong
    calc (m : ℚ) * 2 ^ e
      _ < 2 ^ 53 * 2 ^ e := mul_lt_mul_of_pos_right hm' (by positivity)
      _ = 2 ^ 52 * 2 ^ (e + 1) := by
        rw [zpow_add_one₀ two_ne_zero]
        ring
      _ ≤ m' * 2 ^ e' :=
        mul_le_mul hlong' (zpow_le_zpow_right₀ one_le_two he) (by positivity) (by positivity)
  rcases lt_trichotomy e e' with hlt | rfl | hgt
  · have hlong : 2 ^ 52 ≤ m' := h'.2.2.resolve_right (by have := h.2.1; omega)
    simp [Int.compare_eq_lt.2 hlt, hless hlong h.1 hlt]
  · rw [mul_lt_mul_iff_of_pos_right (by positivity)]
    simp [Nat.compare_eq_lt]
  · have hlong : 2 ^ 52 ≤ m := h.2.2.resolve_right (by have := h'.2.1; omega)
    simp [Int.compare_eq_gt.2 hgt, (hless hlong h'.1 hgt).le]

theorem lt_iff_unpacked : x < y ↔ UnpackedFloat.lt x.toModel.unpack y.toModel.unpack = true := by
  change decide (x.toModel < y.toModel) = true ↔ _
  rw [decide_eq_true_iff]
  rfl

theorem lt_iff (hx : value? x = some a) (hy : value? y = some b) : x < y ↔ a < b := by
  have hx' := canonical_unpacked x
  have hy' := canonical_unpacked y
  rw [value?] at hx hy
  rw [lt_iff_unpacked]
  generalize x.toModel.unpack = f at hx hx'
  generalize y.toModel.unpack = g at hy hy'
  cases f with
  | infinity s => cases hx
  | notANumber => cases hx
  | zero s =>
    obtain rfl := Option.some.inj hx
    cases g with
    | infinity t => cases hy
    | notANumber => cases hy
    | zero t =>
      obtain rfl := Option.some.inj hy
      simp [UnpackedFloat.lt, UnpackedFloat.compare]
    | finite t m' e' hm' =>
      obtain rfl := Option.some.inj hy
      have hpos : (0 : ℚ) < m' * 2 ^ e' := by positivity
      cases t <;> simp [UnpackedFloat.lt, UnpackedFloat.compare, signed, hpos, hpos.le]
  | finite s m e hm =>
    obtain rfl := Option.some.inj hx
    have hpos : (0 : ℚ) < m * 2 ^ e := by positivity
    cases g with
    | infinity t => cases hy
    | notANumber => cases hy
    | zero t =>
      obtain rfl := Option.some.inj hy
      cases s <;> simp [UnpackedFloat.lt, UnpackedFloat.compare, signed, hpos, hpos.le]
    | finite t m' e' hm' =>
      obtain rfl := Option.some.inj hy
      have hpos' : (0 : ℚ) < m' * 2 ^ e' := by positivity
      cases s <;> cases t
      · rw [signed, signed, neg_lt_neg_iff, magnitude_lt_iff hy' hx', UnpackedFloat.lt,
          UnpackedFloat.compare, Ordering.swap_then, Int.compare_swap, Nat.compare_swap, beq_iff_eq,
          Option.some_inj]
      · have : -((m : ℚ) * 2 ^ e) < m' * 2 ^ e' := by linarith
        simp [UnpackedFloat.lt, UnpackedFloat.compare, signed, this]
      · have : -((m' : ℚ) * 2 ^ e') ≤ m * 2 ^ e := by linarith
        simp [UnpackedFloat.lt, UnpackedFloat.compare, signed, this]
      · rw [signed, signed, magnitude_lt_iff hx' hy', UnpackedFloat.lt, UnpackedFloat.compare,
          beq_iff_eq, Option.some_inj]

/-- A number that is not negative is infinite or has a value. -/
theorem nonneg_iff :
    0.0 ≤ x ↔ x.toModel.unpack = .infinity .positive ∨ ∃ a, value? x = some a ∧ 0 ≤ a := by
  rw [value?]
  change decide ((0.0 : Float).toModel ≤ x.toModel) = true ↔ _
  rw [decide_eq_true_iff]
  change UnpackedFloat.le (.zero .positive) x.toModel.unpack = true ↔ _
  cases x.toModel.unpack with
  | infinity s => cases s <;> simp [UnpackedFloat.le, UnpackedFloat.compare, valueOf?]
  | notANumber => simp [UnpackedFloat.le, UnpackedFloat.compare, valueOf?]
  | zero s => simp [UnpackedFloat.le, UnpackedFloat.compare, valueOf?]
  | finite s m e hm =>
    have hpos : (0 : ℚ) < m * 2 ^ e := by positivity
    cases s <;> simp [UnpackedFloat.le, UnpackedFloat.compare, valueOf?, signed, hpos, hpos.le]

theorem value_nonneg (hx : 0.0 ≤ x) (h : value? x = some a) : 0 ≤ a := by
  rcases nonneg_iff.1 hx with hf | ⟨b, hb, hb0⟩
  · rw [value?, hf] at h
    cases h
  · obtain rfl := Option.some.inj (h.symm.trans hb)
    exact hb0

private theorem lt_infinity (hx : value? x = some a) (hy : y.toModel.unpack = .infinity .positive) :
    x < y := by
  rw [lt_iff_unpacked, hy]
  obtain ⟨s, hf⟩ | ⟨s, m, e, hm, hf⟩ := zero_or_finite hx <;> rw [hf] <;> rfl

/-- What is not negative and not greater than a value has a value itself. -/
theorem exists_value_of_not_lt (hx : value? x = some a) (hy : 0.0 ≤ y) (h : ¬ x < y) :
    ∃ b, value? y = some b ∧ b ≤ a := by
  rcases nonneg_iff.1 hy with hy | ⟨b, hy, -⟩
  · exact absurd (lt_infinity hx hy) h
  · exact ⟨b, hy, not_lt.1 (mt (lt_iff hx hy).2 h)⟩

/-! ### Sums of numbers that are not negative -/

theorem unpack_add
    (h : Canonical (UnpackedFloat.add Format.binary64 x.toModel.unpack y.toModel.unpack)) :
    (x + y).toModel.unpack =
      stored (UnpackedFloat.add Format.binary64 x.toModel.unpack y.toModel.unpack) :=
  unpack_pack h

/-- Only two negative zeros add up to one. -/
theorem eq_negZero_of_add (hx : value? x = some a) (hy : value? y = some b)
    (h : (x + y).toModel.unpack = .zero .negative) :
    x.toModel.unpack = .zero .negative ∧ y.toModel.unpack = .zero .negative := by
  have hrounds := (rounds_add (canonical_unpacked x) (canonical_unpacked y) hx hy).1
  rw [unpack_add hrounds.canonical] at h
  exact add_eq_negZero (canonical_unpacked x) (canonical_unpacked y) hx hy (eq_negZero_of_stored h)

theorem toFloat_ne_negZero (n : UInt64) : n.toFloat.toModel.unpack ≠ .zero .negative := by
  have hunpack : n.toFloat.toModel.unpack = stored (UnpackedFloat.ofNat Format.binary64 n.toNat) :=
    unpack_pack (rounds_ofNat n.toNat).canonical
  rw [hunpack]
  exact fun h => normalize_ne_negZero (by norm_num) (eq_negZero_of_stored h)

private theorem unpack_add_eq_infinity
    (h : UnpackedFloat.add Format.binary64 x.toModel.unpack y.toModel.unpack =
      .infinity .positive) : (x + y).toModel.unpack = .infinity .positive := by
  rw [unpack_add (by rw [h]; trivial), h]
  rfl

/-- The sum of two numbers that are not negative is infinite, or both have values, which add up to
little more than the value of the sum. -/
theorem add_cases (hx : 0.0 ≤ x) (hy : 0.0 ≤ y) :
    (x + y).toModel.unpack = .infinity .positive ∨
      ∃ a b c, value? x = some a ∧ value? y = some b ∧ value? (x + y) = some c ∧
        0 ≤ c ∧ a + b ≤ c + c / 2 ^ 53 := by
  rcases nonneg_iff.1 hx with hf | ⟨a, ha, ha0⟩
  · refine Or.inl (unpack_add_eq_infinity ?_)
    rw [hf]
    rcases nonneg_iff.1 hy with hg | ⟨b, hb, -⟩
    · rw [hg]
      rfl
    · obtain ⟨t, hg⟩ | ⟨t, m, e, hm, hg⟩ := zero_or_finite hb <;> rw [hg] <;> rfl
  · rcases nonneg_iff.1 hy with hg | ⟨b, hb, hb0⟩
    · refine Or.inl (unpack_add_eq_infinity ?_)
      rw [hg]
      obtain ⟨s, hf⟩ | ⟨s, m, e, hm, hf⟩ := zero_or_finite ha <;> rw [hf] <;> rfl
    · obtain ⟨hrounds, k, j, hj, hsum⟩ :=
        rounds_add (canonical_unpacked x) (canonical_unpacked y) ha hb
      obtain ⟨c, hc, herror⟩ := hrounds.relative_error hj hsum
      obtain ⟨c', hc', hc0⟩ := hrounds.nonneg (add_nonneg ha0 hb0)
      obtain rfl : c = c' := Option.some.inj (hc.symm.trans hc')
      rw [abs_of_nonneg hc0] at herror
      refine (stored_of_nonneg hc hc0).imp (unpack_add hrounds.canonical).trans fun hsame =>
        ⟨a, b, c, ha, hb, ?_, hc0, by linarith [(abs_le.1 herror).1]⟩
      rw [value?, unpack_add hrounds.canonical, hsame, hc]

theorem exists_values_of_add (hx : 0.0 ≤ x) (hy : 0.0 ≤ y) (h : value? (x + y) = some c) :
    ∃ a b, value? x = some a ∧ value? y = some b ∧ a + b ≤ c + c / 2 ^ 53 := by
  rcases add_cases hx hy with hadd | ⟨a, b, c', ha, hb, hc, -, hsum⟩
  · rw [value?, hadd] at h
    cases h
  · obtain rfl := Option.some.inj (h.symm.trans hc)
    exact ⟨a, b, ha, hb, hsum⟩

theorem nonneg_add (hx : 0.0 ≤ x) (hy : 0.0 ≤ y) : 0.0 ≤ x + y :=
  nonneg_iff.2 ((add_cases hx hy).imp_right fun ⟨_, _, c, _, _, hc, hc0, _⟩ => ⟨c, hc, hc0⟩)

end TieredAdmission.Double

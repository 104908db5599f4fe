import TieredAdmission.Decimal.Literal
import TieredAdmission.Proofs.Decimal.Layout

/-!
# The double nearest to a decimal

`nearest` rounds the exact value of its digits: no double is nearer, a tie goes to the even
mantissa, and what is too great for a double is infinite. Short decimals are the quotient or product
of two doubles that are exact, the others are divided or multiplied out in full, and exponents far
outside the range of doubles are settled by the number of digits.
-/

namespace TieredAdmission.Decimal

open Float.Model Float.Model.UnpackedFloat
open Double

variable {n k : Nat} {e : Int} {a : ℚ} {x : Float} {f : UnpackedFloat}

/-! ### Digits -/

private theorem lt_pow_length_digits (n : Nat) : n < 10 ^ (digits n).length :=
  (Nat.length_toDigits_le_iff (by decide) Nat.length_toDigits_pos).1 le_rfl

private theorem pow_length_digits_le (hn : 0 < n) : 10 ^ ((digits n).length - 1) ≤ n := by
  rcases Nat.eq_zero_or_pos ((digits n).length - 1) with hone | hmore
  · rw [hone]
    exact hn
  · refine Nat.le_of_not_lt fun hlt => ?_
    have hshort : (digits n).length ≤ (digits n).length - 1 :=
      (Nat.length_toDigits_le_iff (by decide) hmore).2 hlt
    omega

/-- The number of digits and the exponent tell the size of a decimal. -/
theorem size_lt (n : Nat) (e : Int) :
    (n : ℚ) * 10 ^ e < 10 ^ ((digits n).length + e : Int) := by
  rw [zpow_add₀ (by norm_num), zpow_natCast]
  have : (n : ℚ) < 10 ^ (digits n).length := by exact_mod_cast lt_pow_length_digits n
  exact mul_lt_mul_of_pos_right this (by positivity)

private theorem le_size (hn : 0 < n) (e : Int) :
    (10 : ℚ) ^ ((digits n).length + e - 1 : Int) ≤ n * 10 ^ e := by
  have hlength : 0 < (digits n).length := Nat.length_toDigits_pos
  have hexponent : ((digits n).length + e - 1 : Int) = ((digits n).length - 1 : Nat) + e := by
    omega
  rw [hexponent, zpow_add₀ (by norm_num), zpow_natCast]
  have : (10 : ℚ) ^ ((digits n).length - 1) ≤ n := by exact_mod_cast pow_length_digits_le hn
  exact mul_le_mul_of_nonneg_right this (by positivity)

/-! ### Short decimals -/

private theorem value?_of_binary {m : Nat} {e : Int} (h : Binary.ofFloat x = .finite false m e) :
    value? x = some ((m : ℚ) * 2 ^ e) := by
  rw [binary_ofFloat] at h
  rw [value?]
  generalize x.toModel.unpack = f at h
  cases f with
  | infinity s => cases h
  | notANumber => cases h
  | zero s =>
    simp only [binaryOf, Binary.finite.injEq] at h
    simp [valueOf?, ← h.2.1]
  | finite s m' e' hm =>
    cases s with
    | negative => simp [binaryOf, isNegative] at h
    | positive =>
      simp only [binaryOf, Binary.finite.injEq] at h
      obtain ⟨-, rfl, rfl⟩ := h
      rfl

/-- Powers of ten up to the twenty-second are whole numbers of at most 53 bits, less the zeros at
the end. -/
theorem binary_powerOfTen : ∀ k : Fin 23,
    Binary.ofFloat (Float.exactlyRepresentablePowersOfTen[k]) =
      .finite false (5 ^ k.val * 2 ^ (52 - (5 ^ k.val).log2)) (k + (5 ^ k.val).log2 - 52) := by
  decide +kernel

private theorem value?_powerOfTen (hk : k < Float.exactlyRepresentablePowersOfTen.size) :
    value? Float.exactlyRepresentablePowersOfTen[k] = some ((10 : ℚ) ^ k) := by
  have hbits : (5 ^ k).log2 ≤ 52 := by
    have hlt : 5 ^ k < 2 ^ 53 := by
      have : 5 ^ k ≤ 5 ^ 22 := Nat.pow_le_pow_right (by decide) (Nat.le_of_lt_succ hk)
      exact Nat.lt_of_le_of_lt this (by decide)
    have := (log2_lt_iff (n := 53) (Nat.pow_pos (by decide : 0 < 5) : 0 < 5 ^ k)).2 hlt
    omega
  have hbinary : Binary.ofFloat Float.exactlyRepresentablePowersOfTen[k] =
      .finite false (5 ^ k * 2 ^ (52 - (5 ^ k).log2)) (k + (5 ^ k).log2 - 52) :=
    binary_powerOfTen ⟨k, hk⟩
  rw [value?_of_binary hbinary]
  obtain ⟨j, hj⟩ : ∃ j : Nat, 52 - (5 ^ k).log2 = j := ⟨_, rfl⟩
  have hexponent : (k + (5 ^ k).log2 - 52 : Int) = k - j := by omega
  rw [hj, hexponent, zpow_sub₀ two_ne_zero, zpow_natCast, zpow_natCast,
    show (10 : ℚ) = 5 * 2 by norm_num, mul_pow]
  push_cast
  field_simp

/-! ### All decimals -/

/-- The exact product of a decimal that is not a fraction. -/
theorem rounds_mul_pow (hn : 0 < n) (k : Nat) (h : 0 < n <<< 53) (h' : 0 < 10 ^ k) :
    Rounds (UnpackedFloat.mul Format.binary64 (.finite .positive (n <<< 53) (-53) h)
      (.finite .positive (10 ^ k) 0 h')) (n * 10 ^ k) := by
  have hshift : n <<< 53 * 10 ^ k = n * 10 ^ k * 2 ^ 53 := by
    rw [Nat.shiftLeft_eq]
    ring
  have hrounds := rounds_roundWithAccuracy .positive (m := n <<< 53 * 10 ^ k) (e := -53 + 0) (by
    rw [hshift, target_eq, log2_mul_two_pow (Nat.mul_pos hn h')]
    omega)
  have hvalue : signed .positive (((n <<< 53 * 10 ^ k : Nat) : ℚ) * 2 ^ (-53 + 0 : Int)) =
      n * 10 ^ k := by
    rw [hshift, signed]
    push_cast
    norm_num
    ring
  rw [hvalue] at hrounds
  exact hrounds

/-- The quotient of a decimal that is a fraction. -/
theorem rounds_div_pow (hn : 0 < n) (k : Nat) (h : 0 < 10 ^ k) :
    Rounds (UnpackedFloat.div Format.binary64 (.finite .positive n 0 hn)
      (.finite .positive (10 ^ k) 0 h)) (n / 10 ^ k) :=
  rounds_div (by simp [valueOf?, signed]) (by simp [valueOf?, signed]) (by positivity)

theorem exists_rounds (hn : 0 < n) (e : Int) : ∃ f, Rounds f ((n : ℚ) * 10 ^ e) := by
  obtain ⟨k, rfl | rfl⟩ := e.eq_nat_or_neg
  · exact ⟨_, by simpa using rounds_mul_pow hn k (by simpa [Nat.shiftLeft_eq]) (by positivity)⟩
  · exact ⟨_, by simpa [div_eq_mul_inv] using rounds_div_pow hn k (by positivity)⟩

/-- The general conversion gives up on exponents only where the digits cannot make up for them. -/
theorem rounded_ofScientific (hn : 0 < n) (hlow : -330 ≤ ((digits n).length + e : Int))
    (hhigh : ((digits n).length + e : Int) ≤ 310) :
    Rounded (Float.ofModel (Float.Model.ofScientific n e)) (n * 10 ^ e) := by
  have hlength : (digits n).length ≤ n.log2 + 1 := by
    refine (Nat.length_toDigits_le_iff (by decide) (Nat.succ_pos _)).2 ?_
    exact Nat.lt_of_lt_of_le Nat.lt_log2_self (Nat.pow_le_pow_left (by decide) _)
  have hbits : (2 : Int) ^ Format.binary64.exponentBits = 2048 := by decide
  refine rounded_of_pack (f := UnpackedFloat.ofScientific Format.binary64 n e) ?_ rfl
  rw [UnpackedFloat.ofScientific, dif_neg (Nat.ne_of_gt hn), if_neg (by rw [hbits]; omega),
    if_neg (by rw [hbits]; omega)]
  split
  · next hwhole =>
    obtain ⟨k, rfl⟩ := Int.eq_ofNat_of_zero_le hwhole
    rw [zpow_natCast]
    exact rounds_mul_pow hn k _ _
  · next hfraction =>
    obtain ⟨k, rfl⟩ : ∃ k : Nat, e = -k := ⟨e.natAbs, by omega⟩
    simp only [neg_neg, Int.toNat_natCast]
    rw [zpow_neg, zpow_natCast, ← div_eq_mul_inv]
    exact rounds_div_pow hn k _

private theorem rounded_ofScientific_whole (hn : 0 < n) (hhigh : (digits n).length + k ≤ 310) :
    Rounded (Float.ofScientific n false k) (n * 10 ^ (k : Int)) := by
  rw [Float.ofScientific]
  split
  · next h =>
    rw [if_neg Bool.false_ne_true, zpow_natCast]
    exact rounded_mul (value?_toFloat h.1) (value?_powerOfTen _)
  · exact rounded_ofScientific (e := k) hn (by omega) (by omega)

private theorem rounded_ofScientific_fraction (hn : 0 < n) (hk : 0 < k)
    (hlow : -330 ≤ ((digits n).length - k : Int)) (hhigh : ((digits n).length - k : Int) ≤ 310) :
    Rounded (Float.ofScientific n true k) (n * 10 ^ (-k : Int)) := by
  rw [Float.ofScientific]
  split
  · next h =>
    rw [if_pos rfl, zpow_neg, zpow_natCast, ← div_eq_mul_inv]
    exact rounded_div (value?_toFloat h.1) (value?_powerOfTen _) (by positivity)
  · have hneg : Int.negOfNat k = -k := by
      cases k <;> rfl
    dsimp only
    rw [if_pos rfl, hneg]
    exact rounded_ofScientific hn (by omega) (by omega)

private theorem limit_le_pow : (2 ^ 53 - 1 / 2) * 2 ^ (971 : Int) ≤ (10 : ℚ) ^ (310 : Int) := by
  have hpow : 2 ^ 1024 ≤ 10 ^ 310 := by decide +kernel
  have hcast : ((2 ^ 1024 : Nat) : ℚ) ≤ ((10 ^ 310 : Nat) : ℚ) := Nat.cast_le.2 hpow
  rw [Nat.cast_pow, Nat.cast_pow, Nat.cast_ofNat, Nat.cast_ofNat] at hcast
  calc ((2 : ℚ) ^ 53 - 1 / 2) * 2 ^ (971 : Int)
    _ ≤ 2 ^ 53 * 2 ^ (971 : Int) := mul_le_mul_of_nonneg_right (by norm_num) (by positivity)
    _ = 2 ^ (1024 : Int) := limit_eq.symm
    _ ≤ 10 ^ (310 : Int) := hcast

private theorem pow_le_least : (10 : ℚ) ^ (-331 : Int) ≤ 2 ^ (-1075 : Int) := by
  have hpow : 2 ^ 1075 ≤ 10 ^ 331 := by decide +kernel
  have hcast : ((2 ^ 1075 : Nat) : ℚ) ≤ ((10 ^ 331 : Nat) : ℚ) := Nat.cast_le.2 hpow
  rw [Nat.cast_pow, Nat.cast_pow, Nat.cast_ofNat, Nat.cast_ofNat] at hcast
  rw [zpow_neg, zpow_neg]
  exact inv_anti₀ (by positivity) hcast

private theorem rounded_zero (ha : |a| ≤ 2 ^ (-1075 : Int)) : Rounded 0.0 a := by
  refine ⟨.zero .positive, ⟨trivial, 0, -1074, by simp [valueOf?], ?_⟩, rfl⟩
  have hhalf : (2 : ℚ) ^ (-1074 : Int) / 2 = 2 ^ (-1075 : Int) := by
    rw [show (-1074 : Int) = -1075 + 1 by norm_num, zpow_add_one₀ two_ne_zero,
      mul_div_cancel_right₀ _ two_ne_zero]
  exact {
    half := by rwa [Int.cast_zero, zero_mul, zero_sub, abs_neg, hhalf]
    even := fun _ => Even.zero
    bits := by norm_num
    least := le_rfl
    low := Or.inl rfl }

/-- The value of a decimal is the rounding of the number it writes. -/
theorem rounded_nearest (n : Nat) (e : Int) : Rounded (nearest n e) (n * 10 ^ e) := by
  rw [nearest]
  split
  · next hzero =>
    rw [hzero, Nat.cast_zero, zero_mul]
    exact rounded_zero (by rw [abs_zero]; positivity)
  next hpos =>
  have hn : 0 < n := Nat.pos_of_ne_zero hpos
  dsimp only
  split
  · next hgreat =>
    obtain ⟨f, hf⟩ := exists_rounds hn e
    have hlimit : (2 ^ 53 - 1 / 2) * 2 ^ (971 : Int) ≤ (n : ℚ) * 10 ^ e :=
      limit_le_pow.trans ((zpow_le_zpow_right₀ (by norm_num) (by omega)).trans (le_size hn e))
    exact ⟨f, hf, (stored_eq_infinity hf hlimit).symm⟩
  · split
    · next hsmall =>
      refine rounded_zero ?_
      rw [abs_of_nonneg (by positivity)]
      exact (size_lt n e).le.trans
        ((zpow_le_zpow_right₀ (by norm_num) (by omega)).trans pow_le_least)
    · split
      · next hneg =>
        obtain ⟨k, rfl⟩ : ∃ k : Nat, e = -k := ⟨e.natAbs, by omega⟩
        rw [Int.natAbs_neg, Int.natAbs_natCast]
        exact rounded_ofScientific_fraction hn (by omega) (by omega) (by omega)
      · next hwhole =>
        obtain ⟨k, rfl⟩ : ∃ k : Nat, e = k := ⟨e.natAbs, by omega⟩
        rw [Int.natAbs_natCast]
        exact rounded_ofScientific_whole hn (by omega)

/-- Of all doubles the one nearest to the number is taken, and the one with the even mantissa of two
that are equally near. From half a place above the greatest double on the value is infinite. -/
theorem nearest_is_closest (n : Nat) (e : Int) :
    (∀ b, value? (nearest n e) = some b → ∀ y c, value? y = some c → c ≠ b →
      |b - n * 10 ^ e| < |c - n * 10 ^ e| ∨
        |b - n * 10 ^ e| = |c - n * 10 ^ e| ∧
          IsEven (nearest n e).toModel.unpack ∧ ¬ IsEven y.toModel.unpack) ∧
    (value? (nearest n e) = none ↔ (2 ^ 53 - 1 / 2) * 2 ^ (971 : Int) ≤ (n : ℚ) * 10 ^ e) ∧
    (value? (nearest n e) = none → (nearest n e).toModel.unpack = .infinity .positive) := by
  have hrounded := rounded_nearest n e
  have hnone : value? (nearest n e) = none ↔
      (2 ^ 53 - 1 / 2) * 2 ^ (971 : Int) ≤ (n : ℚ) * 10 ^ e := by
    rw [hrounded.value?_eq_none_iff, abs_of_nonneg (by positivity)]
  exact ⟨fun b hb y c hc hne => hrounded.closer hb hc hne, hnone,
    fun h => hrounded.eq_infinity (hnone.1 h)⟩

/-! ### Decimals with a point -/

private theorem valueFrom_eq (acc : Nat) (cs : List Char) :
    valueFrom acc cs = acc * 10 ^ cs.length + value cs := by
  induction cs generalizing acc with
  | nil => simp [valueFrom, value]
  | cons c cs ih =>
    have hcons (acc : Nat) : valueFrom acc (c :: cs) = valueFrom (10 * acc + digitValue c) cs := rfl
    rw [value, hcons, hcons, ih, ih (10 * 0 + digitValue c), List.length_cons, Nat.pow_succ]
    ring

private theorem value_append (ds fs : List Char) :
    value (ds ++ fs) = value ds * 10 ^ fs.length + value fs := by
  rw [← valueFrom_eq, value, value, valueFrom, List.foldl_append]
  rfl

/-- The digits after the point write a fraction. -/
theorem rounded_point (ds fs : List Char) (e : Int) :
    Rounded (nearest (value (ds ++ fs)) (e - fs.length))
      ((value ds + value fs / 10 ^ fs.length) * 10 ^ e) := by
  have hrounded := rounded_nearest (value (ds ++ fs)) (e - fs.length)
  rw [value_append, zpow_sub₀ (by norm_num), zpow_natCast] at hrounded
  rw [value_append]
  convert hrounded using 1
  push_cast
  field_simp

end TieredAdmission.Decimal

import TieredAdmission.Proofs.Double.Rounding

/-!
# Operations on doubles

A double is unpacked into a sign, a mantissa and an exponent, the operation is done on these, and
the result is packed again. Between canonical numbers each operation gives the rounding of the exact
result, and packing changes a canonical number only if its exponent is too great.
-/

namespace TieredAdmission.Double

open Float.Model Float.Model.UnpackedFloat

variable {s : Sign} {m : Nat} {e : Int} {f g : UnpackedFloat} {a b c : ℚ}

/-! ### Bits -/

private theorem toNat_one_append (m : BitVec 52) : (1#1 ++ m).toNat = 2 ^ 52 + m.toNat := by
  rw [BitVec.toNat_append, ← Nat.shiftLeft_add_eq_or_of_lt m.isLt]
  rfl

/-- What a canonical number becomes when it is stored: too great ones become infinite. -/
def stored : UnpackedFloat → UnpackedFloat
  | .finite s m e h => if 972 ≤ e then .infinity s else .finite s m e h
  | f => f

theorem unpack_packComponents (s : Sign) (e : BitVec 11) (m : BitVec 52) :
    UnpackedFloat.unpack Format.binary64 (packComponents Format.binary64 s e m) =
      if e = -1#11 then if m = 0#52 then .infinity s else .notANumber
      else if e = 0#11 then
        if h : m = 0#52 then .zero s
        else .finite s m.toNat (-1074) (by simpa [BitVec.toNat_pos, BitVec.pos_iff_ne_zero] using h)
      else .finite s (2 ^ 52 + m.toNat) ((e.toNat : Int) - 1075) (by omega) := by
  have hbias : ((Format.binary64.exponentBias : Nat) : Int) +
      (Format.binary64.mantissaBitsWithoutImplicit : Nat) = 1075 := by decide
  simp only [UnpackedFloat.unpack, unpackMantissa_packComponents, unpackExponent_packComponents,
    unpackSign_packComponents, Sign.ofBitVec_toBitVec, toNat_one_append, hbias]
  split
  · rfl
  · split
    · next h =>
      subst h
      rfl
    · rfl

private theorem pack_finite_of_great (s : Sign) (hm : 0 < m) (he : 972 ≤ e) :
    UnpackedFloat.pack Format.binary64 (.finite s m e hm) = packedInfinity Format.binary64 s := by
  have hbias : e + (Format.binary64.exponentBias : Nat) +
      (Format.binary64.mantissaBitsWithoutImplicit : Nat) = e + 1075 := by
    change e + ((1023 : Nat) : Int) + ((52 : Nat) : Int) = e + 1075
    omega
  rw [UnpackedFloat.pack]
  dsimp only
  rw [hbias, if_pos (by change 2048 ≤ _; omega)]

private theorem pack_finite (s : Sign) (hm : 0 < m) (h : Canonical (.finite s m e hm))
    (he : e < 972) : UnpackedFloat.pack Format.binary64 (.finite s m e hm) =
      packComponents Format.binary64 s
        (BitVec.ofNat 11 (if 2 ^ 52 ≤ m then (e + 1075).toNat else 0)) (BitVec.ofNat 52 m) := by
  have hbias : e + (Format.binary64.exponentBias : Nat) +
      (Format.binary64.mantissaBitsWithoutImplicit : Nat) = e + 1075 := by
    change e + ((1023 : Nat) : Int) + ((52 : Nat) : Int) = e + 1075
    omega
  have hbits : m.log2 + 1 = Format.binary64.mantissaBits ↔ 2 ^ 52 ≤ m := by
    change m.log2 + 1 = 53 ↔ 2 ^ 52 ≤ m
    have hlt := (log2_lt_iff (n := 53) hm).2 h.1
    have hle := not_congr (log2_lt_iff (n := 52) hm)
    omega
  have hfits : ¬ 2 ^ Format.binary64.exponentBits ≤ (e + 1075).toNat + 1 := by
    change ¬ 2048 ≤ _
    omega
  rw [UnpackedFloat.pack]
  dsimp only
  rw [hbias, if_neg hfits]
  by_cases hnormal : 2 ^ 52 ≤ m
  · rw [if_pos (hbits.2 hnormal), if_pos hnormal]
  · rw [if_neg (mt hbits.1 hnormal), if_neg hnormal]

/-- Storing and reading back a canonical number changes it only if it is too great. -/
theorem unpack_pack (h : Canonical f) :
    UnpackedFloat.unpack Format.binary64 (UnpackedFloat.pack Format.binary64 f) = stored f := by
  cases f with
  | infinity s => exact unpack_packComponents s (-1#11) 0#52
  | notANumber => exact unpack_packComponents .positive (-1#11) (1#52 <<< 51)
  | zero s => exact unpack_packComponents s 0#11 0#52
  | finite s m e hm =>
    obtain ⟨hlt, hmin, hbits⟩ := h
    by_cases he : 972 ≤ e
    · rw [pack_finite_of_great s hm he, stored, if_pos he]
      exact unpack_packComponents s (-1#11) 0#52
    · rw [pack_finite s hm ⟨hlt, hmin, hbits⟩ (by omega), unpack_packComponents, stored, if_neg he]
      by_cases hnormal : 2 ^ 52 ≤ m
      · have hexponent : (BitVec.ofNat 11 (e + 1075).toNat).toNat = (e + 1075).toNat :=
          Nat.mod_eq_of_lt (by omega)
        have hmantissa : 2 ^ 52 + (BitVec.ofNat 52 m).toNat = m := by
          change 2 ^ 52 + m % 2 ^ 52 = m
          omega
        have hnotAll : BitVec.ofNat 11 (e + 1075).toNat ≠ -1#11 := fun h => by
          have : (e + 1075).toNat = 2047 := hexponent.symm.trans (congrArg BitVec.toNat h)
          omega
        have hnotNone : BitVec.ofNat 11 (e + 1075).toNat ≠ 0#11 := fun h => by
          have : (e + 1075).toNat = 0 := hexponent.symm.trans (congrArg BitVec.toNat h)
          omega
        rw [if_pos hnormal, if_neg hnotAll, if_neg hnotNone]
        congr 1
        rw [hexponent]
        omega
      · have hmantissa : (BitVec.ofNat 52 m).toNat = m := Nat.mod_eq_of_lt (by omega)
        have hnotNone : BitVec.ofNat 52 m ≠ 0#52 := fun h => by
          have : m = 0 := hmantissa.symm.trans (congrArg BitVec.toNat h)
          omega
        rw [if_neg hnormal, if_neg (by decide), if_pos rfl, dif_neg hnotNone]
        congr 1
        omega

theorem canonical_unpack (b : BitVec 64) :
    Canonical (UnpackedFloat.unpack Format.binary64 b) := by
  have hbias : ((Format.binary64.exponentBias : Nat) : Int) +
      (Format.binary64.mantissaBitsWithoutImplicit : Nat) = 1075 := by decide
  simp only [UnpackedFloat.unpack, hbias, toNat_one_append]
  have hlt : (@unpackMantissa Format.binary64 b).toNat < 2 ^ 52 := BitVec.isLt _
  split
  · split <;> trivial
  · split
    · next hzero =>
      split
      · trivial
      · have hexponent : (@unpackExponent Format.binary64 b).toNat = 0 :=
          congrArg BitVec.toNat hzero
        exact ⟨by omega, by omega, Or.inr (by omega)⟩
    · next hone hzero =>
      have hpos : (@unpackExponent Format.binary64 b).toNat ≠ 0 := fun h0 =>
        hzero (BitVec.eq_of_toNat_eq h0)
      exact ⟨by omega, by omega, Or.inl (by omega)⟩

/-- What was read from bits is not too great to be stored. -/
theorem stored_unpack (b : BitVec 64) :
    stored (UnpackedFloat.unpack Format.binary64 b) = UnpackedFloat.unpack Format.binary64 b := by
  have hbias : ((Format.binary64.exponentBias : Nat) : Int) +
      (Format.binary64.mantissaBitsWithoutImplicit : Nat) = 1075 := by decide
  simp only [UnpackedFloat.unpack, hbias]
  split
  · split <;> rfl
  · next hall =>
    have hlt : (@unpackExponent Format.binary64 b).toNat < 2047 := by
      have hne : (@unpackExponent Format.binary64 b).toNat ≠ 2047 := fun h =>
        hall (BitVec.eq_of_toNat_eq h)
      have : (@unpackExponent Format.binary64 b).toNat < 2 ^ 11 := BitVec.isLt _
      omega
    split
    · next hzero =>
      have hexponent : (@unpackExponent Format.binary64 b).toNat = 0 :=
        congrArg BitVec.toNat hzero
      split
      · rfl
      · exact if_neg (by omega)
    · exact if_neg (by omega)

/-! ### Operations on unpacked doubles -/

theorem rounds_zero (s : Sign) : Rounds (.zero s) 0 where
  canonical := trivial
  nearest := ⟨0, -1074, by simp [valueOf?],
    { half := by simp; positivity, even := fun _ => Even.zero, bits := by norm_num,
      least := le_rfl, low := Or.inl rfl }⟩

/-- A canonical double is its own rounding. -/
theorem rounds_self (h : Canonical f) (hf : valueOf? f = some a) : Rounds f a := by
  cases f with
  | infinity s => cases hf
  | notANumber => cases hf
  | zero s =>
    obtain rfl := Option.some.inj hf
    exact rounds_zero s
  | finite s m e hm =>
    obtain rfl := Option.some.inj hf
    have hcanonical := h
    obtain ⟨hlt, hmin, hbits⟩ := h
    have hself : (s.apply m : ℚ) * 2 ^ e - signed s (m * 2 ^ e) = 0 := by
      rw [apply_mul, Int.cast_natCast, sub_self]
    refine ⟨hcanonical, s.apply m, e, ?_, ?_, fun htie => ?_, ?_, hmin,
      hbits.symm.imp_right fun hle => ?_⟩
    · rw [apply_mul, Int.cast_natCast]
      rfl
    · rw [hself, abs_zero]
      positivity
    · rw [hself, abs_zero] at htie
      exact absurd htie.symm (by positivity)
    · rw [abs_apply]
      exact_mod_cast hlt.le
    · have hwhole : (2 : ℚ) ^ (52 : Int) ≤ m := by exact_mod_cast hle
      rw [abs_signed, abs_of_nonneg (by positivity), add_comm, zpow_add₀ two_ne_zero]
      exact mul_le_mul_of_nonneg_right hwhole (by positivity)

private theorem signed_mul (s t : Sign) (a b : ℚ) :
    signed s a * signed t b = signed (s * t) (a * b) := by
  cases s <;> cases t <;> simp [signed]

private theorem le_target_mul {m' : Nat} {e' : Int} (hm : 0 < m) (hm' : 0 < m')
    (h : Canonical (.finite s m e hm)) (h' : Canonical (.finite s m' e' hm')) :
    e + e' ≤ target (m * m') (e + e') := by
  obtain ⟨-, hmin, hbits⟩ := h
  obtain ⟨-, hmin', hbits'⟩ := h'
  have hpos : 0 < m * m' := Nat.mul_pos hm hm'
  have hlong : 2 ^ 52 ≤ m ∨ 2 ^ 52 ≤ m' → 52 ≤ (m * m').log2 := by
    intro hor
    refine Nat.le_of_not_lt fun hlt => ?_
    rw [log2_lt_iff hpos] at hlt
    rcases hor with hle | hle <;> nlinarith
  rw [target_eq]
  rcases hbits with hle | rfl
  · have := hlong (Or.inl hle)
    omega
  · rcases hbits' with hle | rfl
    · have := hlong (Or.inr hle)
      omega
    · omega

theorem rounds_mul (hf : Canonical f) (hg : Canonical g) (ha : valueOf? f = some a)
    (hb : valueOf? g = some b) : Rounds (UnpackedFloat.mul Format.binary64 f g) (a * b) := by
  cases f with
  | infinity s => cases ha
  | notANumber => cases ha
  | zero s =>
    obtain rfl := Option.some.inj ha
    rw [zero_mul]
    cases g with
    | infinity t => cases hb
    | notANumber => cases hb
    | zero t => exact rounds_zero _
    | finite t m' e' hm' => exact rounds_zero _
  | finite s m e hm =>
    cases g with
    | infinity t => cases hb
    | notANumber => cases hb
    | zero t =>
      obtain rfl := Option.some.inj hb
      rw [mul_zero]
      exact rounds_zero _
    | finite t m' e' hm' =>
      obtain rfl := Option.some.inj ha
      obtain rfl := Option.some.inj hb
      have hproduct : (m : ℚ) * 2 ^ e * (m' * 2 ^ e') = ((m * m' : Nat) : ℚ) * 2 ^ (e + e') := by
        rw [zpow_add₀ two_ne_zero]
        push_cast
        ring
      rw [signed_mul, hproduct]
      exact rounds_roundWithAccuracy _ (le_target_mul hm hm' hf hg)

theorem rounds_normalize (m e : Int) (z : Sign) :
    Rounds (UnpackedFloat.normalize Format.binary64 m e z) (m * 2 ^ e) := by
  rw [UnpackedFloat.normalize]
  rcases lt_trichotomy m 0 with hneg | rfl | hpos
  · obtain ⟨n, rfl⟩ : ∃ n : Nat, m = -n := ⟨(-m).toNat, by omega⟩
    have hcompare : compare (-(n : Int)) 0 = .lt := Int.compare_eq_lt.2 hneg
    have hrounds := rounds_round .negative (m := n) (by omega) e
    rw [hcompare, neg_neg, Int.toNat_natCast]
    simpa [signed] using hrounds
  · simpa using rounds_zero z
  · obtain ⟨n, rfl⟩ : ∃ n : Nat, m = n := ⟨m.toNat, by omega⟩
    have hcompare : compare (n : Int) 0 = .gt := Int.compare_eq_gt.2 hpos
    have hrounds := rounds_round .positive (m := n) (by omega) e
    rw [hcompare, Int.toNat_natCast]
    simpa [signed] using hrounds

theorem rounds_ofNat (n : Nat) : Rounds (UnpackedFloat.ofNat Format.binary64 n) n := by
  simpa [UnpackedFloat.ofNat, UnpackedFloat.ofInt] using rounds_normalize n 0 .positive

/-- The mantissa at a smaller exponent. -/
theorem decreaseExponent_spec (m : Nat) {e e' : Int} (h : e' ≤ e) :
    ((decreaseExponent m e e').1 : ℚ) * 2 ^ e' = m * 2 ^ e := by
  obtain ⟨n, rfl⟩ : ∃ n : Nat, e = e' + n := ⟨(e - e').toNat, by omega⟩
  have hmantissa : (decreaseExponent m (e' + n) e').1 = m * 2 ^ n := by
    have hshift : (e' + n - e').toNat = n := by omega
    rw [decreaseExponent, hshift, Nat.shiftLeft_eq]
  rw [hmantissa, zpow_add₀ two_ne_zero, zpow_natCast]
  push_cast
  ring

private theorem exists_grid (hf : Canonical f) (ha : valueOf? f = some a) :
    ∃ k j : Int, -1074 ≤ j ∧ a = k * 2 ^ j := by
  cases f with
  | infinity s => cases ha
  | notANumber => cases ha
  | zero s => exact ⟨0, 0, by omega, by simpa [valueOf?, eq_comm] using ha⟩
  | finite s m e hm =>
    refine ⟨s.apply m, e, hf.2.1, ?_⟩
    rw [apply_mul, Int.cast_natCast]
    exact (Option.some.inj ha).symm

/-- The sum before it is rounded has no bits below the last place of the least exponent. -/
theorem rounds_add (hf : Canonical f) (hg : Canonical g) (ha : valueOf? f = some a)
    (hb : valueOf? g = some b) : Rounds (UnpackedFloat.add Format.binary64 f g) (a + b) ∧
      ∃ k j : Int, -1074 ≤ j ∧ a + b = k * 2 ^ j := by
  cases f with
  | infinity s => cases ha
  | notANumber => cases ha
  | zero s =>
    obtain rfl := Option.some.inj ha
    rw [zero_add]
    refine ⟨?_, exists_grid hg hb⟩
    cases g with
    | infinity t => cases hb
    | notANumber => cases hb
    | zero t =>
      obtain rfl := Option.some.inj hb
      rw [UnpackedFloat.add]
      split <;> exact rounds_zero _
    | finite t m' e' hm' => exact rounds_self hg hb
  | finite s m e hm =>
    cases g with
    | infinity t => cases hb
    | notANumber => cases hb
    | zero t =>
      obtain rfl := Option.some.inj hb
      rw [add_zero]
      exact ⟨rounds_self hf ha, exists_grid hf ha⟩
    | finite t m' e' hm' =>
      obtain rfl := Option.some.inj ha
      obtain rfl := Option.some.inj hb
      have hsum : signed s (m * 2 ^ e) + signed t (m' * 2 ^ e') =
          ((s.apply (decreaseExponent m e (min e e')).1 +
            t.apply (decreaseExponent m' e' (min e e')).1 : Int) : ℚ) * 2 ^ min e e' := by
        rw [Int.cast_add, add_mul, apply_mul, apply_mul, Int.cast_natCast, Int.cast_natCast,
          decreaseExponent_spec m (min_le_left e e'), decreaseExponent_spec m' (min_le_right e e')]
      rw [hsum]
      exact ⟨rounds_normalize _ _ _, _, _, le_min hf.2.1 hg.2.1, rfl⟩

/-- A number that is not zero and has no bits below the last place is not rounded to zero. -/
theorem normalize_ne_negZero {m : Int} (he : -1074 ≤ e) :
    UnpackedFloat.normalize Format.binary64 m e .positive ≠ .zero .negative := by
  intro hzero
  obtain ⟨r, hr, herror⟩ := (rounds_normalize m e .positive).relative_error he rfl
  rw [hzero] at hr
  obtain rfl := Option.some.inj hr
  rw [zero_sub, abs_neg, abs_zero, zero_div, abs_nonpos_iff, mul_eq_zero,
    Int.cast_eq_zero] at herror
  obtain rfl := herror.resolve_right (by positivity)
  cases hzero

/-- Only two negative zeros add up to one. -/
theorem add_eq_negZero (hf : Canonical f) (hg : Canonical g) (ha : valueOf? f = some a)
    (hb : valueOf? g = some b) (h : UnpackedFloat.add Format.binary64 f g = .zero .negative) :
    f = .zero .negative ∧ g = .zero .negative := by
  cases f with
  | infinity s => cases ha
  | notANumber => cases ha
  | zero s =>
    cases g with
    | infinity t => cases hb
    | notANumber => cases hb
    | zero t =>
      cases s <;> cases t <;> cases h
      exact ⟨rfl, rfl⟩
    | finite t m' e' hm' => cases h
  | finite s m e hm =>
    cases g with
    | infinity t => cases hb
    | notANumber => cases hb
    | zero t => cases h
    | finite t m' e' hm' => exact absurd h (normalize_ne_negZero (le_min hf.2.1 hg.2.1))

private theorem signed_div (s t : Sign) (a b : ℚ) :
    signed s a / signed t b = signed (s / t) (a / b) := by
  cases s <;> cases t
  · exact neg_div_neg_eq a b
  · exact neg_div b a
  · exact div_neg a
  · rfl

/-- The division of the mantissas goes on until the quotient has all bits of a mantissa, or the
exponent is the least one. -/
theorem divCore_spec {m' : Nat} (e e' : Int) (hm : 0 < m) (hm' : 0 < m') :
    ∃ (n : Nat) (t : Int), divCore Format.binary64 m e m' e' =
        (m * 2 ^ n / m', t, accuracyOfFraction (m * 2 ^ n % m') m') ∧
      t + n = e - e' ∧ t ≤ target (m * 2 ^ n / m') t := by
  have htarget : Format.binary64.targetExponent (totalExponent m e - totalExponent m' e') =
      max ((m.log2 : Int) + e - (m'.log2 + e') - 53) (-1074) := by
    have hmin : Format.binary64.minExponent = -1074 := by decide
    have hlong : (Format.binary64.mantissaBits : Int) = 53 := by decide
    rw [Format.targetExponent, totalExponent, totalExponent, hmin, hlong]
    congr 1
    ring
  obtain ⟨t, ht⟩ : ∃ t : Int, min (e - e')
    (Format.binary64.targetExponent (totalExponent m e - totalExponent m' e')) = t := ⟨_, rfl⟩
  obtain ⟨n, hn⟩ : ∃ n : Nat, e - e' - t = n := ⟨(e - e' - t).toNat, by omega⟩
  refine ⟨n, t, ?_, by omega, ?_⟩
  · rw [divCore, ht, hn, Int.toNat_natCast, Nat.shiftLeft_eq]
  · rw [target_eq]
    refine (le_or_gt t (-1074)).elim (le_max_of_le_right ·) fun hgreat => le_max_of_le_left ?_
    have hbits : 52 ≤ (m * 2 ^ n / m').log2 := by
      have hlong : 2 ^ 52 ≤ m * 2 ^ n / m' := by
        rw [Nat.le_div_iff_mul_le hm']
        calc 2 ^ 52 * m'
          _ ≤ 2 ^ 52 * 2 ^ (m'.log2 + 1) := Nat.mul_le_mul_left _ Nat.lt_log2_self.le
          _ = 2 ^ (52 + (m'.log2 + 1)) := (Nat.pow_add 2 52 (m'.log2 + 1)).symm
          _ ≤ 2 ^ (m.log2 + n) := Nat.pow_le_pow_right (by decide) (by omega)
          _ = 2 ^ m.log2 * 2 ^ n := Nat.pow_add 2 m.log2 n
          _ ≤ m * 2 ^ n := Nat.mul_le_mul_right _ (Nat.log2_self_le (Nat.ne_of_gt hm))
      exact (Nat.le_log2 (by omega)).2 hlong
    omega

theorem rounds_div (ha : valueOf? f = some a) (hb : valueOf? g = some b) (hb0 : b ≠ 0) :
    Rounds (UnpackedFloat.div Format.binary64 f g) (a / b) := by
  cases g with
  | infinity t => cases hb
  | notANumber => cases hb
  | zero t => exact absurd (Option.some.inj hb).symm hb0
  | finite t m' e' hm' =>
    cases f with
    | infinity s => cases ha
    | notANumber => cases ha
    | zero s =>
      obtain rfl := Option.some.inj ha
      rw [zero_div]
      exact rounds_zero _
    | finite s m e hm =>
      obtain rfl := Option.some.inj ha
      obtain rfl := Option.some.inj hb
      obtain ⟨n, t', hdiv, hexponent, htarget⟩ := divCore_spec e e' hm hm'
      have hquotient : (m : ℚ) * 2 ^ e / (m' * 2 ^ e') =
          ((m * 2 ^ n : Nat) / m' : ℚ) * 2 ^ t' := by
        obtain rfl : e = t' + n + e' := by omega
        rw [zpow_add₀ two_ne_zero, zpow_add₀ two_ne_zero, zpow_natCast]
        push_cast
        field_simp
      rw [UnpackedFloat.div]
      dsimp only
      rw [hdiv, signed_div, hquotient]
      exact rounds_quotient _ _ hm' htarget

end TieredAdmission.Double

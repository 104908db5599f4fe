import Mathlib

/-!
# Rounding to doubles

A finite double is a whole mantissa below `2 ^ 53` times a power of two. An operation on doubles
forms an exact mantissa and exponent and shifts bits out at the low end, of which it keeps the one
next to the mantissa and whether any of the others is set. These two bits decide to which side it
rounds, and so the result is one of the doubles next to the exact value, no further from it than
half the distance between them.
-/

namespace TieredAdmission.Double

open Float.Model Float.Model.UnpackedFloat

/-! ### Values -/

def signed : Sign → ℚ → ℚ
  | .positive, a => a
  | .negative, a => -a

/-- The value of an unpacked double that is finite. -/
def valueOf? : UnpackedFloat → Option ℚ
  | .zero _ => some 0
  | .finite s m e _ => some (signed s (m * 2 ^ e))
  | .infinity _ | .notANumber => none

/-- The form in which doubles are kept: all bits of the mantissa are used, unless the exponent is
the least one. Exponents that are too great for a double are still allowed here. -/
def Canonical : UnpackedFloat → Prop
  | .finite _ m e _ => m < 2 ^ 53 ∧ -1074 ≤ e ∧ (2 ^ 52 ≤ m ∨ e = -1074)
  | .zero _ | .infinity _ | .notANumber => True

/-- The exponent to which a mantissa and exponent are shifted. -/
def target (m : Nat) (e : Int) : Int := Format.binary64.targetExponent (totalExponent m e)

variable {s : Sign} {m d n k : Nat} {e t : Int} {x : ℚ} {f : UnpackedFloat}
  {em : ExtendedMantissa}

private theorem signed_zero (s : Sign) : signed s 0 = 0 := by
  cases s <;> simp [signed]

theorem abs_signed (s : Sign) (a : ℚ) : |signed s a| = |a| := by
  cases s <;> simp [signed]

theorem abs_signed_sub (s : Sign) (a b : ℚ) : |signed s a - signed s b| = |a - b| := by
  cases s
  · rw [signed, signed, neg_sub_neg, abs_sub_comm]
  · rfl

theorem apply_mul (s : Sign) (k : Int) (a : ℚ) : (s.apply k : ℚ) * a = signed s (k * a) := by
  cases s <;> simp [signed, Sign.apply]

theorem abs_apply (s : Sign) (k : Nat) : |s.apply k| = k := by
  cases s <;> simp [Sign.apply]

theorem even_apply (s : Sign) (h : k % 2 = 0) : Even (s.apply k) := by
  have heven : Even (k : Int) := by exact_mod_cast Nat.even_iff.2 h
  cases s
  · exact heven.neg
  · exact heven

theorem target_eq (m : Nat) (e : Int) : target m e = max (m.log2 + e - 52) (-1074) := by
  have hmin : Format.binary64.minExponent = -1074 := by decide
  have hbits : (Format.binary64.mantissaBits : Int) = 53 := by decide
  rw [target, Format.targetExponent, totalExponent, hmin, hbits]
  congr 1
  ring

/-! ### Shifting bits out -/

/-- What is left of a quotient when the bits below the last one of the mantissa are dropped. -/
structure Shifted (m d : Nat) (em : ExtendedMantissa) : Prop where
  mantissa : em.mantissa = m / d
  roundBit : em.roundBit = true ↔ d ≤ 2 * (m % d)
  stickyBit : em.stickyBit = true ↔ m % d ≠ 0 ∧ 2 * (m % d) ≠ d

theorem shifted_quotient (m : Nat) (hd : 0 < d) :
    Shifted m d (.ofMantissaAndAccuracy (m / d) (accuracyOfFraction (m % d) d)) := by
  rw [accuracyOfFraction]
  split
  · next hzero =>
    exact ⟨rfl, by simp [ExtendedMantissa.ofMantissaAndAccuracy, hzero]; omega,
      by simp [ExtendedMantissa.ofMantissaAndAccuracy, hzero]⟩
  · next hrest =>
    rcases Nat.lt_trichotomy (2 * (m % d)) d with hlt | heq | hgt
    · rw [Nat.compare_eq_lt.2 hlt]
      exact ⟨rfl, by simp [ExtendedMantissa.ofMantissaAndAccuracy]; omega,
        by simp [ExtendedMantissa.ofMantissaAndAccuracy]; omega⟩
    · rw [Nat.compare_eq_eq.2 heq]
      exact ⟨rfl, by simp [ExtendedMantissa.ofMantissaAndAccuracy]; omega,
        by simp [ExtendedMantissa.ofMantissaAndAccuracy, heq]⟩
    · rw [Nat.compare_eq_gt.2 hgt]
      exact ⟨rfl, by simp [ExtendedMantissa.ofMantissaAndAccuracy]; omega,
        by simp [ExtendedMantissa.ofMantissaAndAccuracy]; omega⟩

/-- The last bit of the mantissa becomes the one next to it, and the former one is remembered with
the bits beyond. -/
theorem Shifted.step (hd : 0 < d) (h : Shifted m d em) : Shifted m (d * 2) em.shiftRightOne := by
  have hlt : m % d < d := Nat.mod_lt _ hd
  have hrest : m % (d * 2) = m % d + d * (m / d % 2) := Nat.mod_mul
  have hround := h.roundBit
  have hsticky := h.stickyBit
  refine ⟨?_, ?_, ?_⟩
  · rw [ExtendedMantissa.shiftRightOne, h.mantissa, Nat.div_div_eq_div_mul]
  · rw [ExtendedMantissa.shiftRightOne, h.mantissa, hrest]
    rcases Nat.mod_two_eq_zero_or_one (m / d) with hbit | hbit
    · simp [hbit]
      omega
    · simp [hbit]
      omega
  · have hlow : (em.roundBit || em.stickyBit) = true ↔ m % d ≠ 0 := by
      rw [Bool.or_eq_true, hround, hsticky]
      omega
    rw [ExtendedMantissa.shiftRightOne, hlow, hrest]
    rcases Nat.mod_two_eq_zero_or_one (m / d) with hbit | hbit <;>
      simp only [hbit] <;> omega

theorem Shifted.shiftRight (hd : 0 < d) (h : Shifted m d em) (n : Nat) :
    Shifted m (d * 2 ^ n) (em >>> n) := by
  induction n with
  | zero => rwa [Nat.pow_zero, Nat.mul_one]
  | succ n ih =>
    rw [Nat.pow_succ, ← Nat.mul_assoc]
    exact ih.step (Nat.mul_pos hd (Nat.two_pow_pos n))

theorem shifted_whole (m n : Nat) :
    Shifted m (2 ^ n) ((⟨m, false, false⟩ : ExtendedMantissa) >>> n) := by
  have hwhole : Shifted m 1 ⟨m, false, false⟩ := by
    have hquotient := shifted_quotient m Nat.one_pos
    rwa [Nat.div_one, Nat.mod_one] at hquotient
  simpa using hwhole.shiftRight Nat.one_pos n

/-- The rounded mantissa is the quotient or one more, is next to the exact one, and is even where it
lies half way between the two. -/
theorem Shifted.nearest (hd : 0 < d) (h : Shifted m d em) :
    m / d ≤ em.roundedMantissa ∧ em.roundedMantissa ≤ m / d + 1 ∧
      2 * (em.roundedMantissa * d) ≤ 2 * m + d ∧ 2 * m ≤ 2 * (em.roundedMantissa * d) + d ∧
      (2 * (em.roundedMantissa * d) = 2 * m + d ∨ 2 * m = 2 * (em.roundedMantissa * d) + d →
        em.roundedMantissa % 2 = 0) := by
  obtain ⟨hmantissa, hround, hsticky⟩ := h
  obtain ⟨q, roundBit, stickyBit⟩ := em
  dsimp only at hmantissa hround hsticky
  subst hmantissa
  have hlt : m % d < d := Nat.mod_lt _ hd
  have hdiv : m / d * d + m % d = m := Nat.div_add_mod' m _
  have hsucc : (m / d + 1) * d = m / d * d + d := Nat.succ_mul _ _
  cases roundBit <;> cases stickyBit <;>
    simp only [ExtendedMantissa.roundedMantissa, ExtendedMantissa.accuracy,
      Accuracy.roundToNearestEven] <;>
    simp only [true_iff, false_iff, Bool.false_eq_true] at hround hsticky
  · omega
  · omega
  · rcases Nat.mod_two_eq_zero_or_one (m / d) with hbit | hbit <;> rw [hbit]
    · rw [Nat.add_zero]
      omega
    · omega
  · omega

/-! ### The rounded number -/

/-- A rounded mantissa put into canonical form, which takes a shift if the rounding made it one bit
longer. -/
def settled (s : Sign) (k : Nat) (t : Int) : UnpackedFloat :=
  let (em, e) := shiftToTargetExponent Format.binary64 k t .exact
  if h : em.mantissa = 0 then .zero s else .finite s em.mantissa e (Nat.pos_of_ne_zero h)

private theorem roundWithAccuracy_eq_settled (s : Sign) (m : Nat) (accuracy : Accuracy)
    (he : e ≤ target m e) :
    roundWithAccuracy Format.binary64 s m e accuracy =
      settled s (ExtendedMantissa.ofMantissaAndAccuracy m accuracy >>>
        (target m e - e).toNat).roundedMantissa (target m e) := by
  have hexponent : e + ((target m e - e).toNat : Int) = target m e := by omega
  refine Eq.trans (b := settled s _ (e + ((target m e - e).toNat : Int))) rfl ?_
  rw [hexponent]
  rfl

theorem log2_lt_iff (hk : 0 < k) : k.log2 < n ↔ k < 2 ^ n :=
  Nat.log2_lt (Nat.ne_of_gt hk)

theorem log2_mul_two_pow (hk : 0 < k) (n : Nat) : (k * 2 ^ n).log2 = k.log2 + n := by
  have hk0 : k ≠ 0 := Nat.ne_of_gt hk
  rw [Nat.log2_eq_iff (Nat.mul_ne_zero hk0 (Nat.ne_of_gt (Nat.two_pow_pos n)))]
  constructor
  · rw [Nat.pow_add]
    exact Nat.mul_le_mul_right _ (Nat.log2_self_le hk0)
  · rw [Nat.add_right_comm, Nat.pow_add]
    exact Nat.mul_lt_mul_of_pos_right Nat.lt_log2_self (Nat.two_pow_pos n)

private theorem target_of_lt (hk : k < 2 ^ 53) (ht : -1074 ≤ t) : target k t ≤ t := by
  rw [target_eq]
  rcases Nat.eq_zero_or_pos k with rfl | hpos
  · simp
    omega
  · have := (log2_lt_iff hpos).2 hk
    omega

private theorem settled_of_lt (s : Sign) (hk : k < 2 ^ 53) (ht : -1074 ≤ t) :
    settled s k t = if h : k = 0 then .zero s else .finite s k t (Nat.pos_of_ne_zero h) := by
  have hshift : (target k t - t).toNat = 0 := by
    have := target_of_lt hk ht
    omega
  have hsame : shiftToTargetExponent Format.binary64 k t .exact = (⟨k, false, false⟩, t) := by
    change ((⟨k, false, false⟩ : ExtendedMantissa) >>> (target k t - t).toNat,
      t + ((target k t - t).toNat : Int)) = _
    rw [hshift]
    simp
    rfl
  rw [settled, hsame]

private theorem settled_of_eq (s : Sign) (ht : -1074 ≤ t) :
    settled s (2 ^ 53) t = .finite s (2 ^ 52) (t + 1) (Nat.two_pow_pos 52) := by
  have hshift : (target (2 ^ 53) t - t).toNat = 1 := by
    rw [target_eq, Nat.log2_two_pow]
    omega
  have hnext : shiftToTargetExponent Format.binary64 (2 ^ 53) t .exact =
      (⟨2 ^ 52, false, false⟩, t + 1) := by
    change ((⟨2 ^ 53, false, false⟩ : ExtendedMantissa) >>> (target (2 ^ 53) t - t).toNat,
      t + ((target (2 ^ 53) t - t).toNat : Int)) = _
    rw [hshift]
    rfl
  rw [settled, hnext]
  rfl

/-- The multiple `k` of `2 ^ t` is next to the number, and even where two are equally near. The
place is no greater than a mantissa of 53 bits asks for, or the least one. -/
structure NextTo (k t : Int) (x : ℚ) : Prop where
  half : |(k : ℚ) * 2 ^ t - x| ≤ 2 ^ t / 2
  even : |(k : ℚ) * 2 ^ t - x| = 2 ^ t / 2 → Even k
  bits : |k| ≤ 2 ^ 53
  least : -1074 ≤ t
  low : t = -1074 ∨ (2 : ℚ) ^ (t + 52) ≤ |x|

/-- The unpacked double has the value of the rounded number. -/
structure Rounds (f : UnpackedFloat) (x : ℚ) : Prop where
  canonical : Canonical f
  nearest : ∃ k t : Int, valueOf? f = some ((k : ℚ) * 2 ^ t) ∧ NextTo k t x

private theorem settled_spec (s : Sign) (hk : k ≤ 2 ^ 53) (ht : -1074 ≤ t)
    (hbits : t = -1074 ∨ 2 ^ 52 ≤ k) :
    Canonical (settled s k t) ∧ valueOf? (settled s k t) = some (signed s (k * 2 ^ t)) := by
  rcases Nat.lt_or_eq_of_le hk with hlt | rfl
  · rw [settled_of_lt s hlt ht]
    split
    · next hzero =>
      subst hzero
      simp [Canonical, valueOf?, signed_zero]
    · exact ⟨⟨hlt, ht, hbits.symm⟩, rfl⟩
  · rw [settled_of_eq s ht]
    refine ⟨⟨by decide, by omega, Or.inl (Nat.le_refl _)⟩, ?_⟩
    rw [valueOf?, zpow_add₀ (by norm_num)]
    congr 2
    push_cast
    ring

private theorem quotient_lt (h : m.log2 ≤ n + 52) : m / 2 ^ n < 2 ^ 53 := by
  rw [Nat.div_lt_iff_lt_mul (Nat.two_pow_pos n), ← Nat.pow_add]
  exact Nat.lt_of_lt_of_le Nat.lt_log2_self (Nat.pow_le_pow_right (by decide) (by omega))

private theorem le_quotient (h : n + 52 ≤ m.log2) : 2 ^ 52 ≤ m / 2 ^ n := by
  have hm : m ≠ 0 := by
    rintro rfl
    simp at h
  rw [Nat.le_div_iff_mul_le (Nat.two_pow_pos n), ← Nat.pow_add]
  exact Nat.le_trans (Nat.pow_le_pow_right (by decide) (by omega)) (Nat.log2_self_le hm)

theorem nextTo_quotient (s : Sign) (hd : 0 < d) (hup : 2 * (k * d) ≤ 2 * m + d)
    (hdown : 2 * m ≤ 2 * (k * d) + d)
    (heven : 2 * (k * d) = 2 * m + d ∨ 2 * m = 2 * (k * d) + d → k % 2 = 0) (hk : k ≤ 2 ^ 53)
    (ht : -1074 ≤ t) (hlow : t = -1074 ∨ 2 ^ 52 ≤ m / d) :
    NextTo (s.apply k) t (signed s ((m / d : ℚ) * 2 ^ t)) := by
  have hd' : (0 : ℚ) < d := by exact_mod_cast hd
  have hplace : (0 : ℚ) < 2 ^ t := by positivity
  -- both distances in halves of the place over the divisor
  have hunit : (0 : ℚ) < 2 ^ t / (2 * d) := by positivity
  have hhalf : (2 : ℚ) ^ t / 2 = d * (2 ^ t / (2 * d)) := by field_simp
  have hdistance : |(s.apply k : ℚ) * 2 ^ t - signed s ((m / d : ℚ) * 2 ^ t)| =
      |2 * ((k : ℚ) * d) - 2 * m| * (2 ^ t / (2 * d)) := by
    have hscaled : (k : ℚ) * 2 ^ t - m / d * 2 ^ t =
        (2 * ((k : ℚ) * d) - 2 * m) * (2 ^ t / (2 * d)) := by field_simp
    rw [apply_mul, abs_signed_sub, Int.cast_natCast, hscaled, abs_mul, abs_of_pos hunit]
  refine ⟨?_, fun htie => ?_, ?_, ht, hlow.imp_right fun h => ?_⟩
  · rw [hdistance, hhalf]
    refine mul_le_mul_of_nonneg_right (abs_le.2 ⟨?_, ?_⟩) hunit.le
    · have : 2 * (m : ℚ) ≤ 2 * (k * d) + d := by exact_mod_cast hdown
      linarith
    · have : 2 * ((k : ℚ) * d) ≤ 2 * m + d := by exact_mod_cast hup
      linarith
  · rw [hdistance, hhalf, mul_left_inj' hunit.ne', abs_eq hd'.le] at htie
    refine even_apply s (heven (htie.imp (fun h => ?_) fun h => ?_))
    · have : 2 * ((k : ℚ) * d) = 2 * m + d := by linarith
      exact_mod_cast this
    · have : 2 * (m : ℚ) = 2 * (k * d) + d := by linarith
      exact_mod_cast this
  · rw [abs_apply]
    exact_mod_cast hk
  · have hwhole : (2 : ℚ) ^ (52 : Int) ≤ m / d := by
      rw [le_div_iff₀ hd']
      exact_mod_cast (Nat.le_div_iff_mul_le hd).1 h
    rw [abs_signed, abs_of_nonneg (by positivity), add_comm, zpow_add₀ two_ne_zero]
    exact mul_le_mul_of_nonneg_right hwhole hplace.le

/-- The rounding of a quotient of which the bits below the last one are known as a rest. -/
theorem rounds_quotient (s : Sign) (m : Nat) (hd : 0 < d) (he : e ≤ target (m / d) e) :
    Rounds (roundWithAccuracy Format.binary64 s (m / d) e (accuracyOfFraction (m % d) d))
      (signed s ((m / d : ℚ) * 2 ^ e)) := by
  rw [roundWithAccuracy_eq_settled s _ _ he]
  have hteq := target_eq (m / d) e
  generalize target (m / d) e = t at he hteq
  obtain ⟨n, rfl⟩ : ∃ n : Nat, t = e + n := ⟨(t - e).toNat, by omega⟩
  have hn : (e + n - e).toNat = n := by omega
  have hdn : 0 < d * 2 ^ n := Nat.mul_pos hd (Nat.two_pow_pos n)
  have hvalue : (m / d : ℚ) * 2 ^ e = (m / (d * 2 ^ n : Nat) : ℚ) * 2 ^ (e + n : Int) := by
    rw [zpow_add₀ two_ne_zero, zpow_natCast]
    push_cast
    field_simp
  rw [hn, hvalue]
  obtain ⟨hle, hge, hup, hdown, heven⟩ :=
    ((shifted_quotient m hd).shiftRight hd n).nearest hdn
  -- the quotient has at most 53 bits, and no fewer unless the exponent is the least one
  have hquotient : m / (d * 2 ^ n) < 2 ^ 53 := by
    rw [← Nat.div_div_eq_div_mul]
    exact quotient_lt (by omega)
  have hbits : e + n = -1074 ∨ 2 ^ 52 ≤ m / (d * 2 ^ n) := by
    rw [← Nat.div_div_eq_div_mul]
    exact or_iff_not_imp_left.2 fun hne => le_quotient (by omega)
  obtain ⟨hcanonical, hsettled⟩ := settled_spec s (t := e + n) (Nat.le_trans hge hquotient)
    (by omega) (hbits.imp_right fun h => Nat.le_trans h hle)
  refine ⟨hcanonical, _, e + n, ?_,
    nextTo_quotient s hdn hup hdown heven (Nat.le_trans hge hquotient) (by omega) hbits⟩
  rw [hsettled, apply_mul, Int.cast_natCast]

theorem rounds_roundWithAccuracy (s : Sign) (he : e ≤ target m e) :
    Rounds (roundWithAccuracy Format.binary64 s m e .exact) (signed s (m * 2 ^ e)) := by
  have hexact := rounds_quotient s m (d := 1) (e := e) Nat.one_pos (by rwa [Nat.div_one])
  rw [Nat.div_one, Nat.mod_one, Nat.cast_one, div_one] at hexact
  exact hexact

theorem rounds_round (s : Sign) (hm : 0 < m) (e : Int) :
    Rounds (UnpackedFloat.round Format.binary64 s m e) (signed s (m * 2 ^ e)) := by
  have hround : UnpackedFloat.round Format.binary64 s m e = roundWithAccuracy Format.binary64 s
      (m <<< (e - target m e).toNat) (e - ((e - target m e).toNat : Int)) .exact := rfl
  rw [hround]
  generalize hn : (e - target m e).toNat = n
  have hshift : m <<< n = m * 2 ^ n := Nat.shiftLeft_eq m n
  have htarget : target (m * 2 ^ n) (e - n) = target m e := by
    rw [target_eq, target_eq, log2_mul_two_pow hm]
    congr 1
    push_cast
    ring
  have hvalue : ((m * 2 ^ n : Nat) : ℚ) * 2 ^ (e - n) = m * 2 ^ e := by
    rw [zpow_sub₀ two_ne_zero, zpow_natCast]
    push_cast
    field_simp
  rw [hshift, ← hvalue]
  exact rounds_roundWithAccuracy s (by omega)

/-! ### How far from the exact number -/

private theorem eq_of_near {k k' : Int} (h : |(k : ℚ) * 2 ^ t - k' * 2 ^ t| ≤ 2 ^ t / 2) :
    k = k' := by
  have ha : (0 : ℚ) < 2 ^ t := by positivity
  have hhalf : |((k - k' : Int) : ℚ)| ≤ 1 / 2 := by
    rw [← sub_mul, abs_mul, abs_of_pos ha] at h
    push_cast
    exact le_of_mul_le_mul_right (by linarith) ha
  rw [← Int.cast_abs] at hhalf
  have hlt : ((|k - k'| : Int) : ℚ) < 1 := lt_of_le_of_lt hhalf (by norm_num)
  replace hlt : |k - k'| < 1 := by exact_mod_cast hlt
  exact sub_eq_zero.1 (Int.abs_lt_one_iff.1 hlt)

private theorem half_place_le (h : (2 : ℚ) ^ (t + 52) ≤ x) : (2 : ℚ) ^ t / 2 ≤ x / 2 ^ 53 := by
  have hbits : (2 : ℚ) ^ (52 : Int) = 2 ^ 52 := by norm_num
  rw [zpow_add₀ two_ne_zero, hbits] at h
  linarith

/-- A number with all bits of the mantissa is not rounded to one with fewer. -/
theorem place_le_of_near {k : Int} (hnear : |(k : ℚ) * 2 ^ t - x| ≤ 2 ^ t / 2)
    (hlow : (2 : ℚ) ^ (t + 52) ≤ |x|) : (2 : ℚ) ^ (t + 52) ≤ |(k : ℚ) * 2 ^ t| := by
  have ha : (0 : ℚ) < 2 ^ t := by positivity
  have hbits : (2 : ℚ) ^ (t + 52) = 2 ^ 52 * 2 ^ t := by
    rw [add_comm, zpow_add₀ two_ne_zero]
    norm_num
  rw [hbits] at hlow ⊢
  rw [abs_mul, abs_of_pos ha, ← Int.cast_abs]
  refine mul_le_mul_of_nonneg_right ?_ ha.le
  by_contra hless
  have hk : ((|k| : Int) : ℚ) ≤ 2 ^ 52 - 1 := by
    have : |k| < 2 ^ 52 := by exact_mod_cast not_le.1 hless
    exact_mod_cast Int.le_sub_one_of_lt this
  have hsize : |x| ≤ |(k : ℚ) * 2 ^ t| + 2 ^ t / 2 := by
    linarith [abs_sub_abs_le_abs_sub x (k * 2 ^ t), abs_sub_comm x (k * 2 ^ t)]
  rw [abs_mul, abs_of_pos ha, ← Int.cast_abs] at hsize
  linarith [mul_le_mul_of_nonneg_right hk ha.le]

private theorem exists_multiple {j : Int} (h : t ≤ j) (k : Int) :
    ∃ k' : Int, (k : ℚ) * 2 ^ j = k' * 2 ^ t := by
  obtain ⟨n, rfl⟩ : ∃ n : Nat, j = t + n := ⟨(j - t).toNat, by omega⟩
  refine ⟨k * 2 ^ n, ?_⟩
  rw [zpow_add₀ two_ne_zero, zpow_natCast]
  push_cast
  ring

namespace Rounds

/-- What is a whole multiple of the last place is not changed. -/
theorem exact_of_multiple (h : Rounds f x)
    (hx : ∀ t : Int, -1074 ≤ t → (t = -1074 ∨ (2 : ℚ) ^ (t + 52) ≤ |x|) →
      ∃ k : Int, x = k * 2 ^ t) : valueOf? f = some x := by
  obtain ⟨k, t, hvalue, hnext⟩ := h.nearest
  obtain ⟨k', rfl⟩ := hx t hnext.least hnext.low
  rw [hvalue, eq_of_near hnext.half]

/-- Numbers with at most 53 bits are not changed. -/
theorem exact (h : Rounds f x) {k j : Int} (hk : |k| < 2 ^ 53) (hj : -1074 ≤ j)
    (hx : x = k * 2 ^ j) : valueOf? f = some x := by
  refine h.exact_of_multiple fun t ht hlow => ?_
  have hle : t ≤ j := by
    rcases hlow with rfl | hlow
    · exact hj
    · have hbits : |(k : ℚ)| < 2 ^ (53 : Int) := by exact_mod_cast hk
      have hlt : (2 : ℚ) ^ (t + 52) < 2 ^ (53 + j) := by
        rw [zpow_add₀ two_ne_zero 53 j]
        refine lt_of_le_of_lt hlow ?_
        rw [hx, abs_mul, abs_of_pos (by positivity : (0 : ℚ) < 2 ^ j)]
        exact mul_lt_mul_of_pos_right hbits (by positivity)
      have := (zpow_lt_zpow_iff_right₀ (by norm_num : (1 : ℚ) < 2)).1 hlt
      omega
  rw [hx]
  exact exists_multiple hle k

theorem error (h : Rounds f x) :
    ∃ r, valueOf? f = some r ∧ |r - x| ≤ max (|x| / 2 ^ 53) (2 ^ (-1075 : Int)) := by
  obtain ⟨k, t, hvalue, hnext⟩ := h.nearest
  refine ⟨k * 2 ^ t, hvalue, hnext.half.trans ?_⟩
  rcases hnext.low with rfl | hlow
  · have hlast : (2 : ℚ) ^ (-1074 : Int) = 2 ^ (-1075 : Int) * 2 := by
      rw [← zpow_add_one₀ two_ne_zero]
      norm_num
    exact le_max_of_le_right (by linarith)
  · exact le_max_of_le_left (half_place_le hlow)

/-- A number without bits below the last place of the least exponent is off by no more than the size
of the result allows. -/
theorem relative_error (h : Rounds f x) {k j : Int} (hj : -1074 ≤ j) (hx : x = k * 2 ^ j) :
    ∃ r, valueOf? f = some r ∧ |r - x| ≤ |r| / 2 ^ 53 := by
  obtain ⟨k', t, hvalue, hnext⟩ := h.nearest
  have hnear := hnext.half
  refine ⟨k' * 2 ^ t, hvalue, ?_⟩
  rcases hnext.low with rfl | hlow
  · obtain ⟨k'', hmultiple⟩ := exists_multiple hj k
    rw [hx, hmultiple] at hnear
    rw [hx, hmultiple, eq_of_near hnear, sub_self, abs_zero]
    positivity
  · exact hnear.trans (half_place_le (place_le_of_near hnear hlow))

/-- Rounding does not take a number across zero. -/
theorem nonneg (h : Rounds f x) (hx : 0 ≤ x) : ∃ r, valueOf? f = some r ∧ 0 ≤ r := by
  obtain ⟨k, t, hvalue, hnext⟩ := h.nearest
  refine ⟨k * 2 ^ t, hvalue, ?_⟩
  have ha : (0 : ℚ) < 2 ^ t := by positivity
  have hk : 0 ≤ k := by
    by_contra hneg
    have hle : (k : ℚ) ≤ -1 := by exact_mod_cast (by omega : k ≤ -1)
    have hfar := (abs_le.1 hnext.half).1
    nlinarith [mul_le_mul_of_nonneg_right hle ha.le]
  positivity

end Rounds

end TieredAdmission.Double

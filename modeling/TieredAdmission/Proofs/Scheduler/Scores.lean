import TieredAdmission.Scheduler.Priority
import TieredAdmission.Proofs.Decimal.TotalOrder

/-!
# Scores rise with age

A longer wait is never converted to fewer seconds, although the whole seconds and the rest are
rounded apart and then once more when they are added. So, whatever the base priority is, the score
of a request never falls while it ages, as long as the cap is a length of time that can be stored.
-/

namespace TieredAdmission

open Double Float.Model Float.Model.UnpackedFloat

namespace Double

variable {x y : Float} {a b r : ℚ} {f : UnpackedFloat}

/-- Numbers that are not too great are rounded to a value that is little more. -/
theorem Rounded.exists_value (h : Rounded x a) (ha : 0 ≤ a) (hlt : a < 2 ^ 66) :
    ∃ b, value? x = some b ∧ 0 ≤ b ∧ b ≤ a + (a + 1) / 2 ^ 53 := by
  have hgreat : (2 : ℚ) ^ 66 ≤ 2 ^ (1023 : Int) := by
    rw [← zpow_natCast]
    exact zpow_le_zpow_right₀ one_le_two (by norm_num)
  have hleast : (2 : ℚ) ^ (-1075 : Int) ≤ 1 / 2 ^ 53 := by
    rw [one_div, ← zpow_natCast, ← zpow_neg]
    exact zpow_le_zpow_right₀ one_le_two (by norm_num)
  obtain ⟨b, hb, hle⟩ := h.le ha (hlt.trans_le hgreat)
  refine ⟨b, hb, h.nonneg hb ha, hle.trans ?_⟩
  rw [add_div]
  exact add_le_add_right (add_le_add_right hleast _) _

private theorem exists_half (h : Canonical f) (hf : valueOf? f = some a) (ha : 2 ^ 53 ≤ a) :
    ∃ k : Int, a = 2 * k := by
  obtain ⟨s, rfl⟩ | ⟨s, m, e, hm, rfl⟩ := zero_or_finite hf
  · obtain rfl := Option.some.inj hf
    norm_num at ha
  · obtain rfl := Option.some.inj hf
    have hlong : (m : ℚ) < 2 ^ 53 := by exact_mod_cast h.1
    have he : 0 < e := by
      by_contra hnot
      have hplace : (2 : ℚ) ^ e ≤ 1 := zpow_le_one_of_nonpos₀ one_le_two (not_lt.1 hnot)
      have hsize : (m : ℚ) * 2 ^ e ≤ m * 1 := mul_le_mul_of_nonneg_left hplace (by positivity)
      have habs := le_abs_self (signed s ((m : ℚ) * 2 ^ e))
      rw [abs_signed, abs_of_nonneg (by positivity)] at habs
      linarith
    obtain ⟨n, rfl⟩ : ∃ n : Nat, e = n + 1 := ⟨(e - 1).toNat, by omega⟩
    refine ⟨s.apply m * 2 ^ n, ?_⟩
    have happly := apply_mul s m (2 ^ (n + 1 : Int))
    rw [Int.cast_natCast] at happly
    rw [← happly, zpow_add_one₀ two_ne_zero, zpow_natCast]
    push_cast
    ring

/-- From `2 ^ 53` on doubles are even, so a fraction does not take one to the next. -/
theorem add_fraction (hx : value? x = some a) (ha : 2 ^ 53 ≤ a) (hy : value? y = some b)
    (hb : 0 ≤ b) (hlt : b < 1) (hr : value? (x + y) = some r) : r = a := by
  have hrounded := rounded_add hx hy
  have hle : a ≤ r := (rounded_self hx).mono hrounded hx hr (by linarith)
  have hnear := (hrounded.rounds hr).le_distance hr (canonical_unpacked x) hx
  rw [sub_add_cancel_left, abs_neg, abs_of_nonneg hb] at hnear
  have hnext : r < a + 2 := by linarith [(abs_le.1 hnear).2]
  obtain ⟨k, rfl⟩ := exists_half (canonical_unpacked x) hx ha
  obtain ⟨j, rfl⟩ := exists_half (canonical_unpacked _) hr (ha.trans hle)
  have hkj : k ≤ j := by
    have : (k : ℚ) ≤ j := by linarith
    exact_mod_cast this
  have hjk : j < k + 1 := by
    have : (j : ℚ) < k + 1 := by linarith
    exact_mod_cast this
  obtain rfl : j = k := by omega
  rfl

end Double

namespace Duration

variable {a b d : Duration} {w q r w' q' r' : ℚ}

/-- The values that a conversion to seconds goes through: the whole seconds, the rest, and their
sum. -/
structure Converts (d : Duration) (w q r : ℚ) : Prop where
  whole : value? d.seconds.toUInt64.toFloat = some w
  rest : value? (d.subsecond.toUInt64.toFloat / 1e9) = some q
  sum : value? d.toSeconds = some r
  rounds_whole : Rounded d.seconds.toUInt64.toFloat d.seconds
  rounds_rest : Rounded (d.subsecond.toUInt64.toFloat / 1e9) (d.subsecond / 10 ^ 9)
  rest_nonneg : 0 ≤ q
  rest_lt : q < 1

private theorem value?_billion : value? 1e9 = some (10 ^ 9) := by
  have hunpack : (1e9 : Float).toModel.unpack =
      .finite .positive (5 ^ 9 * 2 ^ 32) (-23) (by decide) := rfl
  rw [value?, hunpack, valueOf?, signed]
  norm_num

private theorem value?_two_pow : value? 9007199254740992.0 = some (2 ^ 53) := by
  have hunpack : (9007199254740992.0 : Float).toModel.unpack =
      .finite .positive (2 ^ 52) 1 (by decide) := rfl
  rw [value?, hunpack, valueOf?, signed]
  norm_num

private theorem subsecond_lt (d : Duration) : d.subsecond < 10 ^ 9 := Nat.mod_lt _ (by decide)

theorem exists_converts (h : d.Fits) : ∃ w q r, d.Converts w q r := by
  have hseconds : (d.seconds : ℚ) < 2 ^ 64 := by exact_mod_cast h
  have hsubsecond : (d.subsecond : ℚ) + 1 ≤ 10 ^ 9 := by exact_mod_cast d.subsecond_lt
  have hfraction : (d.subsecond : ℚ) / 10 ^ 9 ≤ 1 - 1 / 10 ^ 9 := by
    rw [div_le_iff₀ (by norm_num)]
    linarith
  have hwhole : Rounded d.seconds.toUInt64.toFloat d.seconds := by
    have hword : d.seconds.toUInt64.toNat = d.seconds := Nat.mod_eq_of_lt h
    simpa only [hword] using rounded_toFloat d.seconds.toUInt64
  have hrest : Rounded (d.subsecond.toUInt64.toFloat / 1e9) (d.subsecond / 10 ^ 9) :=
    rounded_div (value?_toFloat (d.subsecond_lt.trans (by decide))) value?_billion (by norm_num)
  obtain ⟨w, hw, hw0, hwle⟩ := hwhole.exists_value (by positivity) (by linarith)
  obtain ⟨q, hq, hq0, hqle⟩ := hrest.exists_value (by positivity) (by linarith)
  have hlt : q < 1 := by
    linarith
  obtain ⟨r, hr, -⟩ := (rounded_add hw hq).exists_value (add_nonneg hw0 hq0) (by linarith)
  exact ⟨w, q, r, hw, hq, hr, hwhole, hrest, hq0, hlt⟩

theorem Converts.rounds_sum (h : d.Converts w q r) : Rounded d.toSeconds (w + q) :=
  rounded_add h.whole h.rest

/-- A longer time is not converted to fewer seconds. -/
theorem Converts.mono (h : a.Converts w q r) (h' : b.Converts w' q' r') (hab : a ≤ b) :
    r ≤ r' := by
  have hnanos : a.nanoseconds ≤ b.nanoseconds := hab
  have hle : a.seconds ≤ b.seconds := Nat.div_le_div_right hnanos
  rcases Nat.lt_or_eq_of_le hle with hlt | heq
  · -- the whole seconds of the second time lie between
    have hlast : w' ≤ r' := (rounded_self h'.whole).mono h'.rounds_sum h'.whole h'.sum
      (by linarith [h'.rest_nonneg])
    refine le_trans ?_ hlast
    rcases Nat.lt_or_ge a.seconds (2 ^ 53) with hexact | hgreat
    · have hw : w = a.seconds := by
        have hvalue := value?_toFloat hexact
        exact Option.some.inj (h.whole.symm.trans hvalue)
      have hnext : (a.seconds : ℚ) + 1 ≤ b.seconds := by exact_mod_cast hlt
      exact h.rounds_sum.mono h'.rounds_whole h.sum h'.whole (by linarith [h.rest_lt])
    · have hw : 2 ^ 53 ≤ w := by
        have hlong : (2 : ℚ) ^ 53 ≤ a.seconds := by exact_mod_cast hgreat
        exact (rounded_self value?_two_pow).mono h.rounds_whole value?_two_pow h.whole hlong
      rw [add_fraction h.whole hw h.rest h.rest_nonneg h.rest_lt h.sum]
      exact h.rounds_whole.mono h'.rounds_whole h.whole h'.whole (by exact_mod_cast hle)
  · have hsub : a.subsecond ≤ b.subsecond := by
      have ha := Nat.div_add_mod a.nanoseconds nanosPerSecond
      have hb := Nat.div_add_mod b.nanoseconds nanosPerSecond
      rw [seconds, seconds] at heq
      rw [subsecond, subsecond]
      rw [heq] at ha
      omega
    have hw : w = w' := by
      have hwhole := h.whole
      rw [heq, h'.whole] at hwhole
      exact (Option.some.inj hwhole).symm
    have hq : q ≤ q' := h.rounds_rest.mono h'.rounds_rest h.rest h'.rest
      (div_le_div_of_nonneg_right (by exact_mod_cast hsub) (by norm_num))
    exact h.rounds_sum.mono h'.rounds_sum h.sum h'.sum (by linarith)

theorem Converts.nonneg (h : d.Converts w q r) : 0 ≤ r :=
  h.rounds_sum.nonneg h.sum
    (add_nonneg (h.rounds_whole.nonneg h.whole (by positivity)) h.rest_nonneg)

private theorem Converts.ne_negZero (h : d.Converts w q r) :
    d.toSeconds.toModel.unpack ≠ .zero .negative :=
  fun hzero => toFloat_ne_negZero _ (eq_negZero_of_add h.whole h.rest hzero).1

end Duration

/-- A longer wait does not make the score lower. -/
theorem totalKey_priorityScore_le (policy : TierPolicy) (t : Tier) {a b cap : Duration}
    (hcap : cap.Fits) (hab : a ≤ b) :
    Decimal.totalKey (priorityScore policy t a cap) ≤
      Decimal.totalKey (priorityScore policy t b cap) := by
  have hfits (d : Duration) : (d.min cap).Fits :=
    Nat.lt_of_le_of_lt (Nat.div_le_div_right (Nat.min_le_right ..)) hcap
  have hmin : a.min cap ≤ b.min cap :=
    Nat.le_min.2 ⟨Nat.le_trans (Nat.min_le_left ..) hab, Nat.min_le_right ..⟩
  obtain ⟨w, q, r, h⟩ := Duration.exists_converts (hfits a)
  obtain ⟨w', q', r', h'⟩ := Duration.exists_converts (hfits b)
  exact Decimal.totalKey_add_le h.sum h'.sum h.nonneg (h.mono h' hmin) h'.ne_negZero _

end TieredAdmission

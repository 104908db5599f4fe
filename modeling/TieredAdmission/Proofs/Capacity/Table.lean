import Mathlib.Data.List.MinMax
import Mathlib.Data.List.Pairwise
import TieredAdmission.Proofs.Capacity.Level

/-!
# The concurrency table

An estimator keeps its thresholds sorted and looks up the first bound above the whole milliseconds
of a latency. The level found is that of the least bound above the latency itself in the table as
it was listed, and a table that passes the check for monotonicity before it is normalised gives
levels that only fall as latencies grow.
-/

namespace TieredAdmission

/-- The whole milliseconds of a duration are below a bound exactly when the duration is. -/
theorem Duration.millis_lt_iff {d : Duration} {ms : Nat} : d.millis < ms ↔ d < .ofMillis ms :=
  Nat.div_lt_iff_lt_mul (by decide)

namespace CapacityConfig

variable {ts : List ConcurrencyThreshold} {t : ConcurrencyThreshold}

private theorem belowMs_le_trans (a b c : ConcurrencyThreshold)
    (hab : decide (a.belowMs ≤ b.belowMs) = true) (hbc : decide (b.belowMs ≤ c.belowMs) = true) :
    decide (a.belowMs ≤ c.belowMs) = true := by
  simp only [decide_eq_true_eq] at *
  exact Nat.le_trans hab hbc

private theorem belowMs_le_total (a b : ConcurrencyThreshold) :
    (decide (a.belowMs ≤ b.belowMs) || decide (b.belowMs ≤ a.belowMs)) = true := by
  simp only [Bool.or_eq_true, decide_eq_true_eq]
  exact Nat.le_total _ _

private theorem pairwise_sortThresholds (ts : List ConcurrencyThreshold) :
    (sortThresholds ts).Pairwise fun a b => a.belowMs ≤ b.belowMs := by
  have hsorted := List.pairwise_mergeSort belowMs_le_trans belowMs_le_total ts
  exact hsorted.imp fun hab => of_decide_eq_true hab

/-- Where sorting puts one more threshold: after all smaller bounds and before the others. -/
theorem sortThresholds_cons (t : ConcurrencyThreshold) (ts : List ConcurrencyThreshold) :
    ∃ below above, sortThresholds (t :: ts) = below ++ t :: above ∧
      sortThresholds ts = below ++ above ∧ (∀ b ∈ below, b.belowMs < t.belowMs) ∧
      ∀ a ∈ above, t.belowMs ≤ a.belowMs := by
  obtain ⟨below, above, hcons, hts, hbelow⟩ :=
    List.mergeSort_cons belowMs_le_trans belowMs_le_total t ts
  have hsorted := pairwise_sortThresholds (t :: ts)
  rw [sortThresholds, hcons] at hsorted
  refine ⟨below, above, hcons, hts, fun b hb => ?_, fun a ha => ?_⟩
  · simpa using hbelow b hb
  · exact (List.pairwise_cons.1 (List.pairwise_append.1 hsorted).2.1).1 a ha

/-- The first threshold of the sorted table with some property is the first one listed among those
with the property and the least bound. -/
theorem find?_sortThresholds (p : ConcurrencyThreshold → Bool) (ts : List ConcurrencyThreshold) :
    (sortThresholds ts).find? p = (ts.filter p).argmin (·.belowMs) := by
  induction ts with
  | nil => simp [sortThresholds]
  | cons t ts ih =>
    obtain ⟨below, above, hcons, hts, hbelow, habove⟩ := sortThresholds_cons t ts
    rw [hts, List.find?_append] at ih
    rw [hcons, List.find?_append, List.find?_cons]
    cases hp : p t with
    | false => rw [List.filter_cons_of_neg (by simp [hp]), ← ih]
    | true =>
      rw [List.filter_cons_of_pos hp, List.argmin_cons, ← ih]
      -- a smaller bound that was found already stays ahead of the new threshold
      cases hb : below.find? p with
      | some b => simp [hbelow b (List.mem_of_find?_eq_some hb)]
      | none =>
        cases ha : above.find? p with
        | none => rfl
        | some a => simp [habove a (List.mem_of_find?_eq_some ha)]

/-- The threshold that decides the level of a latency: of those with a bound above it the one with
the least bound, and the first one listed among equal bounds. -/
def band? (c : CapacityConfig) (avg : Duration) : Option ConcurrencyThreshold :=
  (c.thresholds.filter fun t => decide (avg < .ofMillis t.belowMs)).argmin (·.belowMs)

private theorem find?_normalized (c : CapacityConfig) (avg : Duration) :
    (c.normalized.thresholds.find? fun t => decide (avg.millis < t.belowMs)) = c.band? avg := by
  simp only [Duration.millis_lt_iff]
  exact find?_sortThresholds _ _

theorem concurrencyFor_normalized (c : CapacityConfig) (avg : Duration) :
    c.normalized.concurrencyFor avg =
      match c.band? avg with
      | none => max c.fallbackConcurrency 1
      | some t => max t.maxConcurrent 1 := by
  rw [concurrencyFor, find?_normalized]
  rfl

private theorem pairwise_of_descending (h : descending ts = true) :
    ts.Pairwise fun a b => b.maxConcurrent ≤ a.maxConcurrent := by
  induction ts with
  | nil => exact .nil
  | cons a rest ih =>
    cases rest with
    | nil => exact List.pairwise_singleton _ _
    | cons b rest =>
      simp only [descending, Bool.and_eq_true, decide_eq_true_eq] at h
      have hrest := ih h.2
      refine .cons (fun u hu => ?_) hrest
      rcases List.mem_cons.1 hu with rfl | hu
      · exact h.1
      · exact Nat.le_trans ((List.pairwise_cons.1 hrest).1 u hu) h.1

/-- The levels of a monotone table fall in the order of the bounds, and none is below the
fallback. -/
theorem isMonotonic_spec {c : CapacityConfig} (h : c.isMonotonic = true) :
    ((sortThresholds c.thresholds).Pairwise fun a b => b.maxConcurrent ≤ a.maxConcurrent) ∧
      ∀ t ∈ sortThresholds c.thresholds, c.fallbackConcurrency ≤ t.maxConcurrent := by
  simp only [isMonotonic, Bool.and_eq_true] at h
  have hfall := pairwise_of_descending h.1
  refine ⟨hfall, fun t ht => ?_⟩
  obtain ⟨hne, hlast⟩ : ∃ hne, c.fallbackConcurrency ≤
      ((sortThresholds c.thresholds).getLast hne).maxConcurrent := by
    have hne := List.ne_nil_of_mem ht
    exact ⟨hne, by simpa [List.getLast?_eq_some_getLast hne] using h.2⟩
  exact Nat.le_trans hlast (hfall.rel_getLast_of_rel_getLast_getLast ht (Nat.le_refl _))

theorem concurrencyFor_antitone {c : CapacityConfig} (h : c.isMonotonic = true)
    {avg avg' : Duration} (hle : avg ≤ avg') :
    c.normalized.concurrencyFor avg' ≤ c.normalized.concurrencyFor avg := by
  obtain ⟨hfall, hfallback⟩ := isMonotonic_spec h
  have hms : avg.millis ≤ avg'.millis := Nat.div_le_div_right hle
  simp only [concurrencyFor, normalized]
  cases hfast : (sortThresholds c.thresholds).find? fun t => decide (avg.millis < t.belowMs) with
  | none =>
    -- no bound is above the shorter latency, so none is above the longer one
    have hslow : ((sortThresholds c.thresholds).find?
        fun t => decide (avg'.millis < t.belowMs)) = none := by
      simp only [List.find?_eq_none, decide_eq_true_eq] at hfast ⊢
      exact fun t ht hlt => hfast t ht (Nat.lt_of_le_of_lt hms hlt)
    rw [hslow]
  | some t =>
    obtain ⟨-, faster, slower, hsorted, hfaster⟩ := List.find?_eq_some_iff_append.1 hfast
    rw [hsorted] at hfall hfallback
    have hskip : faster.find? (fun t => decide (avg'.millis < t.belowMs)) = none := by
      simp only [List.find?_eq_none, decide_eq_true_eq, Bool.not_eq_true', decide_eq_false_iff_not]
        at hfaster ⊢
      exact fun u hu hlt => hfaster u hu (Nat.lt_of_le_of_lt hms hlt)
    rw [hsorted, List.find?_append, hskip, Option.none_or]
    cases hslow : (t :: slower).find? fun t => decide (avg'.millis < t.belowMs) with
    | none => exact max_le_max_right 1 (hfallback t (by simp))
    | some u =>
      rcases List.mem_cons.1 (List.mem_of_find?_eq_some hslow) with rfl | hu
      · exact Nat.le_refl _
      · exact max_le_max_right 1
          ((List.pairwise_cons.1 (List.pairwise_append.1 hfall).2.1).1 u hu)

end CapacityConfig

namespace Estimator

/-- The table an estimator works with, in terms of the configuration it was given: a level is at
least one and is that of the band of the latency, and where the configuration passes for monotone a
longer latency has no higher level. -/
theorem concurrencyFor_new (c : CapacityConfig) :
    (∀ avg, 1 ≤ (Estimator.new c).config.concurrencyFor avg) ∧
      (∀ avg, (Estimator.new c).config.concurrencyFor avg =
        match c.band? avg with
        | none => max c.fallbackConcurrency 1
        | some t => max t.maxConcurrent 1) ∧
      (c.isMonotonic = true → ∀ avg avg', avg ≤ avg' →
        (Estimator.new c).config.concurrencyFor avg' ≤
          (Estimator.new c).config.concurrencyFor avg) :=
  ⟨c.concurrencyFor_pos, c.concurrencyFor_normalized,
    fun h _ _ hle => CapacityConfig.concurrencyFor_antitone h hle⟩

/-- Between equal bounds the one listed first decides, and a latency of one second is not below a
bound of one second. -/
example : let c : CapacityConfig := { thresholds := [⟨5000, 2⟩, ⟨1000, 6⟩, ⟨1000, 7⟩] }
    c.band? ⟨999999999⟩ = some ⟨1000, 6⟩ ∧ c.band? (.ofSeconds 1) = some ⟨5000, 2⟩ := by
  decide

end Estimator

end TieredAdmission

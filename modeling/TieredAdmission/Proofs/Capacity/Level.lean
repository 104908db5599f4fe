import TieredAdmission.Capacity.Estimator

/-!
# Concurrency levels

The level of a normalised configuration lies between one and the greatest level that the table
names, whatever the average latency is.
-/

namespace TieredAdmission

namespace CapacityConfig

/-- The greatest level in the table, where a level of zero counts as one. -/
def topLevel (c : CapacityConfig) : Nat :=
  c.thresholds.foldr (fun t m => max (max t.maxConcurrent 1) m) (max c.fallbackConcurrency 1)

private theorem foldr_max_ge (ts : List ConcurrencyThreshold) (n : Nat) :
    n ≤ ts.foldr (fun t m => max (max t.maxConcurrent 1) m) n ∧
    ∀ t ∈ ts, max t.maxConcurrent 1 ≤ ts.foldr (fun t m => max (max t.maxConcurrent 1) m) n := by
  induction ts with
  | nil => exact ⟨Nat.le_refl n, by simp⟩
  | cons t ts ih =>
    obtain ⟨hn, hts⟩ := ih
    refine ⟨Nat.le_trans hn (Nat.le_max_right _ _), fun u hu => ?_⟩
    rcases List.mem_cons.1 hu with rfl | hu
    · exact Nat.le_max_left _ _
    · exact Nat.le_trans (hts u hu) (Nat.le_max_right _ _)

/-- Thresholds that come in ascending order are kept as they are. -/
theorem thresholds_normalized_of_sorted {c : CapacityConfig}
    (h : c.thresholds.Pairwise fun a b => a.belowMs ≤ b.belowMs) :
    c.normalized.thresholds = c.thresholds :=
  List.mergeSort_of_pairwise (h.imp fun hab => decide_eq_true hab)

/-- A configuration in normal form is kept as it is. -/
theorem normalized_of_sorted {c : CapacityConfig}
    (h : c.thresholds.Pairwise fun a b => a.belowMs ≤ b.belowMs)
    (hfallback : 0 < c.fallbackConcurrency) (hcap : 0 < c.maxSamples) : c.normalized = c := by
  have hsorted : sortThresholds c.thresholds = c.thresholds := thresholds_normalized_of_sorted h
  rw [normalized, hsorted, Nat.max_eq_left hfallback, Nat.max_eq_left hcap]

theorem concurrencyFor_pos (c : CapacityConfig) (avg : Duration) :
    0 < c.normalized.concurrencyFor avg := by
  unfold concurrencyFor
  split
  · exact Nat.le_max_right _ _
  · exact Nat.le_max_right _ _

theorem concurrencyFor_le_topLevel (c : CapacityConfig) (avg : Duration) :
    c.normalized.concurrencyFor avg ≤ c.topLevel := by
  obtain ⟨hfallback, hts⟩ := foldr_max_ge c.thresholds (max c.fallbackConcurrency 1)
  unfold concurrencyFor
  split
  · exact hfallback
  · next t ht =>
    have hmem : t ∈ sortThresholds c.thresholds := List.mem_of_find?_eq_some ht
    exact hts t (List.mem_mergeSort.1 hmem)

end CapacityConfig

namespace Estimator

variable {e : Estimator} {c : CapacityConfig} {now : Instant} {processing : Nat}

/-- The level is that of the average response time in the decision window. -/
theorem maxConcurrent_eq (h : e.config = c.normalized) :
    (e.currentBudget now processing).maxConcurrent =
      c.normalized.concurrencyFor (e.windowStats now c.decisionWindow).avgResponseTime := by
  change e.config.concurrencyFor (e.windowStats now e.config.decisionWindow).avgResponseTime = _
  rw [h]
  rfl

theorem maxConcurrent_pos (h : e.config = c.normalized) :
    0 < (e.currentBudget now processing).maxConcurrent := by
  rw [maxConcurrent_eq h]
  exact c.concurrencyFor_pos _

theorem maxConcurrent_le (h : e.config = c.normalized) :
    (e.currentBudget now processing).maxConcurrent ≤ c.topLevel := by
  rw [maxConcurrent_eq h]
  exact c.concurrencyFor_le_topLevel _

end Estimator

end TieredAdmission

import TieredAdmission.Time.Duration

/-!
# Capacity budgets

A budget is what the capacity estimator grants at one instant: a concurrency level, the slots of it
that are still free, and the window aggregates it was derived from.
-/

namespace TieredAdmission

structure CapacityBudget where
  maxConcurrent : Nat
  currentProcessing : Nat
  /-- Slots of the level not in use; none when more are in use than the level has. -/
  available : Nat
  avgResponseTime : Duration
  errorRate : Float
  sampleCount : Nat

namespace CapacityBudget

/-- A budget without history. -/
def ofCounts (maxConcurrent processing : Nat) : CapacityBudget where
  maxConcurrent := maxConcurrent
  currentProcessing := processing
  available := maxConcurrent - processing
  avgResponseTime := .zero
  errorRate := 0.0
  sampleCount := 0

@[simp] theorem available_ofCounts (m p : Nat) : (ofCounts m p).available = m - p := rfl

end CapacityBudget

end TieredAdmission

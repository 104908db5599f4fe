import TieredAdmission.Breaker

/-!
# What a breaker lets through

A check admits a request when its tier tolerates the error rate and the breaker is not open, or has
been open for longer than the timeout since the last failure. The changes of state that are noted
lead from the state before to the state after, whatever is recorded.
-/

namespace TieredAdmission

namespace CircuitBreaker

variable {b : CircuitBreaker} {t : Tier} {rate : Float} {now : Instant} {s : BreakerState}

def Admits (b : CircuitBreaker) (t : Tier) (rate : Float) (now : Instant) : Prop :=
  (b.state = .opened → b.timeoutPassed now = true) ∧ rate ≤ b.config.errorThreshold.get t

@[simp] theorem config_moveTo (b : CircuitBreaker) (s : BreakerState) :
    (b.moveTo s).config = b.config := by
  unfold moveTo
  split <;> rfl

@[simp] theorem lastFailure_moveTo (b : CircuitBreaker) (s : BreakerState) :
    (b.moveTo s).lastFailure = b.lastFailure := by
  unfold moveTo
  split <;> rfl

@[simp] theorem failures_moveTo (b : CircuitBreaker) (s : BreakerState) :
    (b.moveTo s).failures = b.failures := by
  unfold moveTo
  split <;> rfl

@[simp] theorem successCount_moveTo (b : CircuitBreaker) (s : BreakerState) :
    (b.moveTo s).successCount = b.successCount := by
  unfold moveTo
  split <;> rfl

/-! ### Checks -/

@[simp] theorem config_probe (b : CircuitBreaker) (now : Instant) :
    (b.probe now).config = b.config := by
  unfold probe
  split <;> simp

@[simp] theorem lastFailure_probe (b : CircuitBreaker) (now : Instant) :
    (b.probe now).lastFailure = b.lastFailure := by
  unfold probe
  split <;> simp

theorem state_probe (b : CircuitBreaker) (now : Instant) :
    (b.probe now).state =
      if b.state = .opened ∧ b.timeoutPassed now = true then .halfOpen else b.state := by
  unfold probe
  split <;> simp

theorem state_probe_ne_opened_iff :
    (b.probe now).state ≠ .opened ↔ (b.state = .opened → b.timeoutPassed now = true) := by
  rw [state_probe]
  by_cases ho : b.state = .opened <;> by_cases hp : b.timeoutPassed now = true <;> simp [ho, hp]

theorem canProcess_iff : (b.canProcess t rate now).1 = true ↔ b.Admits t rate now := by
  simp only [canProcess, tolerates, Bool.and_eq_true, bne_iff_ne, decide_eq_true_eq, config_probe,
    state_probe_ne_opened_iff, Admits]

/-- On a breaker that has failed the timeout is measured from the last failure. -/
theorem timeoutPassed_iff {failed : Instant} (h : b.lastFailure = some failed) :
    b.timeoutPassed now = true ↔ b.config.openTimeout < now.since failed := by
  simp [timeoutPassed, h]

/-! ### Records -/

@[simp] theorem config_recordSuccess (b : CircuitBreaker) : b.recordSuccess.config = b.config := by
  unfold recordSuccess
  split
  · split <;> simp
  · rfl

@[simp] theorem lastFailure_recordSuccess (b : CircuitBreaker) :
    b.recordSuccess.lastFailure = b.lastFailure := by
  unfold recordSuccess
  split
  · split <;> simp
  · rfl

/-- No success opens a breaker. -/
theorem opened_of_recordSuccess (h : b.recordSuccess.state = .opened) : b.state = .opened := by
  unfold recordSuccess at h
  split at h
  · next hs =>
    split at h
    · simp at h
    · simp [hs] at h
  · exact h

theorem state_recordSuccess_of_opened (h : b.state = .opened) : b.recordSuccess.state = .opened := by
  rw [recordSuccess, if_neg (by simp [h]), h]

@[simp] theorem config_recordFailure (b : CircuitBreaker) (t : Tier) (now : Instant) :
    (b.recordFailure t now).config = b.config := by
  unfold recordFailure
  dsimp only
  split <;> simp

@[simp] theorem lastFailure_recordFailure (b : CircuitBreaker) (t : Tier) (now : Instant) :
    (b.recordFailure t now).lastFailure = some now := by
  unfold recordFailure
  dsimp only
  split <;> simp

theorem failures_recordFailure (b : CircuitBreaker) (t : Tier) (now : Instant) :
    (b.recordFailure t now).failures = b.failures.increment t := by
  unfold recordFailure
  dsimp only
  split <;> simp

theorem state_recordFailure (b : CircuitBreaker) (t : Tier) (now : Instant) :
    (b.recordFailure t now).state =
      if b.config.tripThreshold ≤ b.failures.total + 1 then .opened else b.state := by
  unfold recordFailure
  simp only [PerTier.total_increment]
  split <;> simp

theorem state_recordFailure_of_opened (h : b.state = .opened) (t : Tier) (now : Instant) :
    (b.recordFailure t now).state = .opened := by
  unfold recordFailure
  dsimp only
  split
  · exact state_moveTo _ _
  · exact h

/-! ### Changes of state -/

/-- The noted changes lead from `s` to the state of the breaker. -/
def LeadsFrom (s : BreakerState) (b : CircuitBreaker) : Prop :=
  b.pending.foldl (fun _ t => t.target) s = b.state

theorem LeadsFrom.of_pending_nil (h : b.pending = []) : b.LeadsFrom b.state := by
  rw [LeadsFrom, h]
  rfl

theorem LeadsFrom.moveTo (h : b.LeadsFrom s) (target : BreakerState) :
    (b.moveTo target).LeadsFrom s := by
  unfold CircuitBreaker.moveTo
  split
  · exact h
  · simp [LeadsFrom]

theorem LeadsFrom.probe (h : b.LeadsFrom s) (now : Instant) : (b.probe now).LeadsFrom s := by
  unfold CircuitBreaker.probe
  split
  · exact moveTo (b := { b with successCount := 0 }) h _
  · exact h

theorem LeadsFrom.recordSuccess (h : b.LeadsFrom s) : b.recordSuccess.LeadsFrom s := by
  unfold CircuitBreaker.recordSuccess
  split
  · split
    · exact moveTo (b := { b with failures := .const 0, successCount := 0 }) h _
    · exact h
  · exact h

theorem LeadsFrom.recordFailure (h : b.LeadsFrom s) (t : Tier) (now : Instant) :
    (b.recordFailure t now).LeadsFrom s := by
  unfold CircuitBreaker.recordFailure
  dsimp only
  split
  · exact moveTo (b := { b with failures := b.failures.increment t, lastFailure := some now }) h _
  · exact h

end CircuitBreaker

end TieredAdmission

import TieredAdmission.Capacity.Estimator

/-!
# Running units of the estimator

Pruning drops closed units only, whatever the clock does. A start therefore adds one running unit
and a completion takes one away, unless none is running.
-/

namespace TieredAdmission

namespace Sample

def runningOf (ss : List Sample) : List Sample := ss.filter isRunning

@[simp] theorem runningOf_running (ss : List Sample) :
    runningOf (running :: ss) = running :: runningOf ss := rfl

@[simp] theorem runningOf_closed (at_ : Instant) (took : Duration) (ss : List Sample) :
    runningOf (closed at_ took :: ss) = runningOf ss := rfl

private theorem runningOf_append (ss ts : List Sample) :
    runningOf (ss ++ ts) = runningOf ss ++ runningOf ts := List.filter_append ..

theorem runningOf_dropClosed (n : Nat) (ss : List Sample) :
    runningOf (dropClosed n ss) = runningOf ss := by
  induction ss generalizing n with
  | nil => simp [dropClosed]
  | cons s rest ih =>
    cases n with
    | zero => simp [dropClosed]
    | succ n =>
      cases s with
      | running => exact congrArg (running :: ·) (ih (n + 1))
      | closed at_ took => exact ih n

private theorem runningOf_retained (cutoff : Instant) (ss : List Sample) :
    runningOf (ss.filter (isRetained cutoff)) = runningOf ss := by
  rw [runningOf, List.filter_filter]
  refine List.filter_congr fun s _ => ?_
  cases s <;> rfl

/-- A history without running units has no newest one, and closing the newest one leaves one less.
-/
theorem closeNewest?_closed (at_ : Instant) (took : Duration) (ss : List Sample) :
    match closeNewest? (closed at_ took) ss with
    | none => runningOf ss = []
    | some ts => (runningOf ts).length + 1 = (runningOf ss).length := by
  induction ss with
  | nil => rfl
  | cons s rest ih =>
    simp only [closeNewest?]
    cases hc : closeNewest? (closed at_ took) rest with
    | some ts =>
      simp only [hc] at ih
      cases s <;> simp [ih]
    | none =>
      simp only [hc] at ih
      cases s <;> simp [isRunning, ih]

end Sample

namespace Estimator

variable (e : Estimator) (now : Instant)

/-- Neither age nor the cap drops a running unit. -/
theorem openSamples_prune : (e.prune now).openSamples = e.openSamples := by
  have h : Sample.runningOf (e.prune now).samples = Sample.runningOf e.samples := by
    unfold prune
    cases now.before? e.config.retention with
    | none => exact Sample.runningOf_dropClosed _ _
    | some cutoff => exact (Sample.runningOf_dropClosed _ _).trans (Sample.runningOf_retained _ _)
  exact congrArg List.length h

theorem openSamples_recordStart : (e.recordStart now).openSamples = e.openSamples + 1 := by
  rw [recordStart, openSamples_prune]
  exact congrArg List.length (Sample.runningOf_append e.samples [Sample.running]) |>.trans
    List.length_append

theorem openSamples_recordComplete (took : Duration) (isError : Bool) :
    (e.recordComplete now took isError).openSamples = e.openSamples - 1 := by
  rw [recordComplete, openSamples_prune]
  have h := Sample.closeNewest?_closed now took e.samples
  change (Sample.runningOf ((Sample.closeNewest? (.closed now took) e.samples).getD _)).length =
    (Sample.runningOf e.samples).length - 1
  cases hc : Sample.closeNewest? (.closed now took) e.samples with
  | none =>
    simp only [hc] at h
    rw [Option.getD_none, Sample.runningOf_append, h]
    rfl
  | some ts =>
    simp only [hc] at h
    rw [Option.getD_some, ← h, Nat.add_sub_cancel]

end Estimator

end TieredAdmission

import TieredAdmission.Proofs.Capacity.Windows

/-!
# How much the estimator holds

The running units are those that a count along the run gives: neither age nor the cap drops one,
whatever the clock shows. The cap drops one entry at a time for as long as there are too many. The
loop over the outcomes can always go on, so they end within the cap; the one over the samples passes
over the running units and gives up when no other one is left, so the samples end within the cap or
are the running ones alone. Either loop makes at most as many rounds as there are entries too many.
-/

namespace TieredAdmission

/-! ### Loops -/

/-- From `a` the step is taken `n` times, which leads to `b`, and then it cannot be taken. -/
inductive Loops {α : Type} (step : α → Option α) : α → Nat → α → Prop where
  | ended {a : α} (stop : step a = none) : Loops step a 0 a
  | round {a b c : α} {n : Nat} (next : step a = some b) (rest : Loops step b n c) :
      Loops step a (n + 1) c

/-- A list without its first entry, if it is longer than the cap. -/
def shift? {α : Type} (cap : Nat) (as : List α) : Option (List α) :=
  if cap < as.length then some as.tail else none

private theorem loops_shift? {α : Type} (cap : Nat) (as : List α) :
    Loops (shift? cap) as (as.length - cap) (as.drop (as.length - cap)) := by
  induction hn : as.length - cap generalizing as with
  | zero => exact .ended (if_neg (Nat.not_lt.2 (Nat.le_of_sub_eq_zero hn)))
  | succ n ih =>
    have hcap : cap < as.length := by omega
    have hrest : as.tail.length - cap = n := by
      rw [List.length_tail]
      omega
    have hloop := ih as.tail hrest
    rw [List.drop_tail] at hloop
    exact .round (if_pos hcap) hloop

/-! ### Dropping closed samples -/

namespace Sample

variable {cap n : Nat} {ss : List Sample}

/-- The history without its oldest closed unit, if it is longer than the cap and has one. -/
def evict? (cap : Nat) (ss : List Sample) : Option (List Sample) :=
  if cap < ss.length then (ss.findIdx? fun s => !s.isRunning).map ss.eraseIdx else none

@[simp] theorem closedOf_running (ss : List Sample) : closedOf (running :: ss) = closedOf ss := rfl

@[simp] theorem closedOf_closed (at_ : Instant) (took : Duration) (ss : List Sample) :
    closedOf (closed at_ took :: ss) = closed at_ took :: closedOf ss := rfl

theorem length_eq (ss : List Sample) :
    ss.length = (runningOf ss).length + (closedOf ss).length := by
  induction ss with
  | nil => rfl
  | cons s rest ih => cases s <;> simp [ih] <;> omega

private theorem closedOf_dropClosed (n : Nat) (ss : List Sample) :
    closedOf (dropClosed n ss) = (closedOf ss).drop n := by
  induction ss generalizing n with
  | nil => simp [dropClosed, closedOf]
  | cons s rest ih =>
    cases n with
    | zero => simp [dropClosed]
    | succ n =>
      cases s with
      | running => exact ih (n + 1)
      | closed at_ took => exact ih n

private theorem length_dropClosed (n : Nat) (ss : List Sample) :
    (dropClosed n ss).length = (runningOf ss).length + ((closedOf ss).length - n) := by
  rw [length_eq, runningOf_dropClosed, closedOf_dropClosed, List.length_drop]

private theorem dropClosed_succ (n : Nat) (ss : List Sample) :
    dropClosed (n + 1) ss = dropClosed n (dropClosed 1 ss) := by
  induction ss with
  | nil => simp [dropClosed]
  | cons s rest ih =>
    cases s with
    | closed at_ took => exact congrArg (dropClosed n) (dropClosed_zero rest).symm
    | running =>
      change running :: dropClosed (n + 1) rest = dropClosed n (running :: dropClosed 1 rest)
      rw [ih]
      cases n with
      | zero => rw [dropClosed_zero, dropClosed_zero]
      | succ n => rfl

private theorem dropClosed_of_closedOf_nil (h : closedOf ss = []) (n : Nat) :
    dropClosed n ss = ss := by
  induction ss generalizing n with
  | nil => simp [dropClosed]
  | cons s rest ih =>
    cases s with
    | closed at_ took => cases h
    | running =>
      cases n with
      | zero => rfl
      | succ n => exact congrArg (running :: ·) (ih h (n + 1))

/-- The oldest closed unit is found from the front. -/
theorem eraseIdx_findIdx? (ss : List Sample) :
    (ss.findIdx? fun s => !s.isRunning).map ss.eraseIdx =
      if closedOf ss = [] then none else some (dropClosed 1 ss) := by
  induction ss with
  | nil => rfl
  | cons s rest ih =>
    cases s with
    | closed at_ took => simp [List.findIdx?_cons, isRunning, dropClosed]
    | running =>
      have hcons : ((running :: rest).findIdx? fun s => !s.isRunning).map (running :: rest).eraseIdx =
          ((rest.findIdx? fun s => !s.isRunning).map rest.eraseIdx).map (running :: ·) := by
        rw [List.findIdx?_cons, if_neg (by decide), Option.map_map, Option.map_map]
        rfl
      rw [hcons, ih, closedOf_running]
      split <;> rfl

private theorem evict?_of_closed (hcap : cap < ss.length) (hclosed : closedOf ss ≠ []) :
    evict? cap ss = some (dropClosed 1 ss) := by
  rw [evict?, if_pos hcap, eraseIdx_findIdx?, if_neg hclosed]

private theorem evict?_eq_none (h : ss.length ≤ cap ∨ closedOf ss = []) : evict? cap ss = none := by
  unfold evict?
  split
  · next hcap => rw [eraseIdx_findIdx?, if_pos (h.resolve_left (Nat.not_le.2 hcap))]
  · rfl

/-- Dropping one closed unit after another ends, with the same history as dropping them at once. -/
theorem loops_evict? (cap : Nat) (ss : List Sample) :
    Loops (evict? cap) ss (min (ss.length - cap) (closedOf ss).length)
      (dropClosed (ss.length - cap) ss) := by
  induction hn : min (ss.length - cap) (closedOf ss).length generalizing ss with
  | zero =>
    have hend : dropClosed (ss.length - cap) ss = ss := by
      rcases Nat.min_eq_zero_iff.1 hn with hcap | hclosed
      · rw [hcap, dropClosed_zero]
      · exact dropClosed_of_closedOf_nil (List.length_eq_zero_iff.1 hclosed) _
    rw [hend]
    refine .ended (evict?_eq_none ?_)
    rw [← List.length_eq_zero_iff]
    omega
  | succ n ih =>
    have hcap : cap < ss.length := by omega
    have hclosed : 0 < (closedOf ss).length := by omega
    have hlength := length_dropClosed 1 ss
    have hsplit := length_eq ss
    have hfewer : (dropClosed 1 ss).length - cap = ss.length - cap - 1 := by omega
    have hrounds : min ((dropClosed 1 ss).length - cap) (closedOf (dropClosed 1 ss)).length = n := by
      rw [closedOf_dropClosed, List.length_drop]
      omega
    have hloop := ih (dropClosed 1 ss) hrounds
    rw [hfewer, ← dropClosed_succ, Nat.sub_add_cancel (by omega)] at hloop
    exact .round (evict?_of_closed hcap (List.ne_nil_of_length_pos hclosed)) hloop

end Sample

/-! ### After every write -/

namespace Estimator

variable {e : Estimator} {w : Write} {ws : List Write} {now : Instant}

/-- The units that run after a write; a completion when none runs takes none away. -/
def Write.running (n : Nat) : Write → Nat
  | .start _ => n + 1
  | .complete _ _ _ => n - 1

/-- The outcomes that are not too old, taken off the front for as long as they are. -/
def recentOutcomes (e : Estimator) (now : Instant) : List OutcomeSample :=
  match now.before? e.config.retention with
  | none => e.outcomes
  | some cutoff => e.outcomes.dropWhile fun o => decide (o.at_ < cutoff)

private theorem drop_recentOutcomes (e : Estimator) (now : Instant) :
    (e.prune now).outcomes =
      (e.recentOutcomes now).drop ((e.recentOutcomes now).length - e.config.maxSamples) := by
  unfold prune recentOutcomes
  cases now.before? e.config.retention <;> rfl

private theorem openSamples_write (e : Estimator) (w : Write) :
    (e.write w).openSamples = w.running e.openSamples := by
  cases w with
  | start now => exact openSamples_recordStart e now
  | complete now took isError => exact openSamples_recordComplete e now took isError

theorem openSamples_after (e : Estimator) (ws : List Write) :
    (e.after ws).openSamples = ws.foldl Write.running e.openSamples := by
  induction ws generalizing e with
  | nil => rfl
  | cons w ws ih =>
    rw [List.foldl_cons, ← openSamples_write]
    exact ih (e.write w)

private theorem openSamples_prune_eq (e : Estimator) (now : Instant) :
    (e.prune now).openSamples = (Sample.runningOf (e.unexpired now)).length := by
  change (Sample.runningOf (e.prune now).samples).length = _
  rw [samples_prune, Sample.runningOf_dropClosed]

/-- The histories are within the cap, or as long as the running units are many. -/
structure Bounded (e : Estimator) : Prop where
  samples : e.samples.length ≤ max e.config.maxSamples e.openSamples
  outcomes : e.outcomes.length ≤ e.config.maxSamples

private theorem bounded_prune (e : Estimator) (now : Instant) : (e.prune now).Bounded where
  samples := by
    have hsplit := Sample.length_eq (e.unexpired now)
    rw [openSamples_prune_eq, config_prune, samples_prune, Sample.length_dropClosed]
    omega
  outcomes := by
    rw [config_prune, drop_recentOutcomes, List.length_drop]
    omega

theorem bounded_after (config : CapacityConfig) (ws : List Write) :
    ((new config).after ws).Bounded := by
  rcases List.eq_nil_or_concat ws with rfl | ⟨ws, w, rfl⟩
  · exact ⟨Nat.zero_le _, Nat.zero_le _⟩
  · have hlast : (new config).after (ws ++ [w]) = ((new config).after ws).write w :=
      List.foldl_concat ..
    rw [List.concat_eq_append, hlast, write_eq_prune]
    exact bounded_prune _ _

private theorem loops_write_samples (e : Estimator) (w : Write) :
    let held := (e.noted w).unexpired w.now
    ∃ rounds ≤ held.length - e.config.maxSamples,
      Loops (Sample.evict? e.config.maxSamples) held rounds (e.write w).samples := by
  rw [write_eq_prune, samples_prune, config_noted]
  exact ⟨_, Nat.min_le_left _ _, Sample.loops_evict? _ _⟩

private theorem loops_write_outcomes (e : Estimator) (w : Write) :
    let held := (e.noted w).recentOutcomes w.now
    Loops (shift? e.config.maxSamples) held (held.length - e.config.maxSamples)
      (e.write w).outcomes := by
  rw [write_eq_prune, drop_recentOutcomes, config_noted]
  exact loops_shift? _ _

/-- After every run, on any clock, the running units are those that the run counts, and a write
drops none of them. The outcomes are within the cap; the samples are within it or no more than the
units that run. At the next write the loops that cut the histories down end, after no more rounds
than there are entries too many. -/
theorem histories_stay_bounded (config : CapacityConfig) (ws : List Write) :
    let e := (new config).after ws
    let cap := max config.maxSamples 1
    e.openSamples = ws.foldl Write.running 0 ∧
    e.outcomes.length ≤ cap ∧ e.samples.length ≤ max cap e.openSamples ∧
    ∀ w,
      let samples := (e.noted w).unexpired w.now
      let outcomes := (e.noted w).recentOutcomes w.now
      (e.write w).openSamples = (e.noted w).openSamples ∧
      (∃ rounds ≤ samples.length - cap,
        Loops (Sample.evict? cap) samples rounds (e.write w).samples) ∧
      Loops (shift? cap) outcomes (outcomes.length - cap) (e.write w).outcomes := by
  intro e cap
  have hcap : e.config.maxSamples = cap := congrArg CapacityConfig.maxSamples (config_after _ ws)
  have hbounded : e.Bounded := bounded_after config ws
  refine ⟨openSamples_after _ ws, hcap ▸ hbounded.outcomes, hcap ▸ hbounded.samples,
    fun w => ⟨?_, hcap ▸ loops_write_samples e w, hcap ▸ loops_write_outcomes e w⟩⟩
  rw [write_eq_prune, openSamples_prune]

end Estimator

end TieredAdmission

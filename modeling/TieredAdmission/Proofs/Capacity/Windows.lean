import TieredAdmission.Proofs.Capacity.Samples
import TieredAdmission.Proofs.Retention

/-!
# Windows of the estimator

On a clock that does not go backwards, pruning is invisible to a window that is no longer than the
retention: the outcomes of the window are those of the whole run among the last ones that the cap
leaves. Response times are kept apart, with the running units, and not in the order of completion.
As long as the cap has dropped none of them they are those of the same completions.
-/

namespace TieredAdmission

namespace Sample

def closedOf (ss : List Sample) : List Sample := ss.filter fun s => !s.isRunning

private theorem closedOf_closeNewest? {c : Sample} (hc : c.isRunning = false) {ss ts : List Sample}
    (h : closeNewest? c ss = some ts) : (closedOf ts).Perm (c :: closedOf ss) := by
  induction ss generalizing ts with
  | nil => cases h
  | cons s rest ih =>
    simp only [closeNewest?] at h
    split at h
    · next rest' hrest =>
      obtain rfl := Option.some.inj h
      have hperm := ih hrest
      cases s with
      | running => exact hperm
      | closed at_ took => exact (hperm.cons _).trans (.swap _ _ _)
    · split at h
      · next hs =>
        obtain rfl := Option.some.inj h
        simp [closedOf, hc, hs]
      · cases h

private theorem closedOf_filter (p : Sample → Bool) (ss : List Sample) :
    closedOf (ss.filter p) = (closedOf ss).filter p := by
  rw [closedOf, closedOf, List.filter_filter, List.filter_filter]
  exact List.filter_congr fun s _ => Bool.and_comm _ _

@[simp] theorem dropClosed_zero (ss : List Sample) : dropClosed 0 ss = ss := by
  cases ss <;> rfl

theorem filterMap_responseSince?_closedOf (c : Option Instant) (ss : List Sample) :
    (closedOf ss).filterMap (responseSince? c) = ss.filterMap (responseSince? c) := by
  rw [closedOf, List.filterMap_filter]
  refine List.filterMap_congr fun s _ => ?_
  cases s <;> rfl

end Sample

namespace Estimator

structure Completion where
  at_ : Instant
  took : Duration
  isError : Bool
deriving DecidableEq, Repr

namespace Completion

def sample (c : Completion) : Sample := .closed c.at_ c.took

def outcome (c : Completion) : OutcomeSample := ⟨c.at_, c.isError⟩

def isSince (cutoff : Option Instant) (c : Completion) : Bool := Instant.isSince cutoff c.at_

end Completion

inductive Write where
  | start (now : Instant)
  | complete (now : Instant) (took : Duration) (isError : Bool)

namespace Write

def now : Write → Instant
  | start now => now
  | complete now _ _ => now

def completion? : Write → Option Completion
  | start _ => none
  | complete now took isError => some ⟨now, took, isError⟩

end Write

/-- The completions of a run, the oldest first. -/
def completions (ws : List Write) : List Completion := ws.filterMap Write.completion?

/-- The estimator with a write noted and nothing dropped yet. -/
def noted (e : Estimator) : Write → Estimator
  | .start _ => { e with samples := e.samples ++ [.running] }
  | .complete now took isError =>
    { e with
      samples := (Sample.closeNewest? (.closed now took) e.samples).getD
        (e.samples ++ [.closed now took])
      outcomes := e.outcomes ++ [⟨now, isError⟩] }

def write (e : Estimator) : Write → Estimator
  | .start now => e.recordStart now
  | .complete now took isError => e.recordComplete now took isError

def after (e : Estimator) (ws : List Write) : Estimator := ws.foldl write e

/-- The samples that are not too old. -/
def unexpired (e : Estimator) (now : Instant) : List Sample :=
  match now.before? e.config.retention with
  | none => e.samples
  | some cutoff => e.samples.filter (Sample.isRetained cutoff)

/-- No write of the run brings the samples above the cap, running units included, once those that
are too old are gone. -/
def WithinCap : Estimator → List Write → Prop
  | _, [] => True
  | e, w :: ws =>
    ((e.noted w).unexpired w.now).length ≤ e.config.maxSamples ∧ (e.write w).WithinCap ws

instance decidableWithinCap : (e : Estimator) → DecidablePred (WithinCap e)
  | _, [] => inferInstanceAs (Decidable True)
  | e, w :: ws =>
    have := decidableWithinCap (e.write w) ws
    inferInstanceAs (Decidable (_ ∧ (e.write w).WithinCap ws))

variable {e : Estimator} {w : Write} {ws : List Write} {cs : List Completion} {s t now : Instant}

theorem write_eq_prune (e : Estimator) (w : Write) : e.write w = (e.noted w).prune w.now := by
  cases w <;> rfl

@[simp] theorem config_prune (e : Estimator) (now : Instant) :
    (e.prune now).config = e.config := rfl

theorem config_write (e : Estimator) (w : Write) : (e.write w).config = e.config := by
  cases w <;> rfl

@[simp] theorem config_noted (e : Estimator) (w : Write) : (e.noted w).config = e.config := by
  cases w <;> rfl

theorem samples_prune (e : Estimator) (now : Instant) :
    (e.prune now).samples =
      Sample.dropClosed ((e.unexpired now).length - e.config.maxSamples) (e.unexpired now) := by
  unfold prune unexpired
  cases now.before? e.config.retention <;> rfl

private theorem outcomes_prune (h : e.outcomes.Pairwise fun a b => a.at_ ≤ b.at_) :
    (e.prune now).outcomes =
      (e.outcomes.filter fun o => Instant.isSince (now.before? e.config.retention) o.at_).rtake
        e.config.maxSamples := by
  unfold prune
  cases now.before? e.config.retention with
  | none =>
    simp only [Instant.isSince_none, List.filter_true]
    rfl
  | some cutoff =>
    rw [← dropWhile_not_eq_filter (h.imp fun hab => Instant.isSince_of_le hab)]
    have hnot (o : OutcomeSample) :
        (!Instant.isSince (some cutoff) o.at_) = decide (o.at_ < cutoff) := by
      rw [Bool.eq_iff_iff]
      simp [Instant.le_iff, Instant.lt_iff]
    simp only [hnot]
    rfl

private theorem outcomes_noted (e : Estimator) (w : Write) :
    (e.noted w).outcomes = e.outcomes ++ (w.completion?.toList.map Completion.outcome) := by
  cases w <;> simp [noted, Write.completion?, Completion.outcome]

theorem closedOf_noted (e : Estimator) (w : Write) :
    (Sample.closedOf (e.noted w).samples).Perm
      (Sample.closedOf e.samples ++ w.completion?.toList.map Completion.sample) := by
  cases w with
  | start now => simp [noted, Sample.closedOf, Sample.isRunning, Write.completion?]
  | complete now took isError =>
    have hclosed : (Sample.closed now took).isRunning = false := rfl
    change (Sample.closedOf ((Sample.closeNewest? (.closed now took) e.samples).getD _)).Perm
      (Sample.closedOf e.samples ++ [.closed now took])
    cases hc : Sample.closeNewest? (.closed now took) e.samples with
    | none => simp [Sample.closedOf, hclosed]
    | some ts =>
      exact (Sample.closedOf_closeNewest? hclosed hc).trans
        (List.perm_append_singleton _ _).symm

private theorem closedOf_unexpired (now : Instant)
    (h : (Sample.closedOf e.samples).Perm (cs.map Completion.sample)) :
    (Sample.closedOf (e.unexpired now)).Perm
      ((cs.filter (Completion.isSince (now.before? e.config.retention))).map
        Completion.sample) := by
  unfold unexpired
  cases now.before? e.config.retention with
  | none =>
    have hall : cs.filter (Completion.isSince none) = cs := List.filter_eq_self.2 fun c _ => rfl
    rw [hall]
    exact h
  | some cutoff =>
    refine (Sample.closedOf_filter _ _ ▸ h.filter (Sample.isRetained cutoff)).trans ?_
    rw [List.filter_map]
    rfl

/-- Completions in the order of time, none of them after an instant. -/
structure UpTo (cs : List Completion) (t : Instant) : Prop where
  ordered : cs.Pairwise fun a b => a.at_ ≤ b.at_
  past : ∀ c ∈ cs, c.at_ ≤ t

theorem UpTo.write (h : UpTo cs t) (ht : t ≤ w.now) :
    UpTo (cs ++ w.completion?.toList) w.now := by
  have hnow : ∀ c ∈ w.completion?.toList, c.at_ = w.now := by
    cases w <;> simp [Write.completion?, Write.now]
  have hpast : ∀ c ∈ cs ++ w.completion?.toList, c.at_ ≤ w.now := by
    intro c hc
    rcases List.mem_append.1 hc with hc | hc
    · exact Int.le_trans (h.past c hc) ht
    · exact Int.le_of_eq (congrArg _ (hnow c hc))
  refine ⟨List.pairwise_append.2 ⟨h.ordered, ?_, fun a ha b hb => ?_⟩, hpast⟩
  · cases w <;> simp [Write.completion?]
  · rw [hnow b hb]
    exact hpast a (List.mem_append_left _ ha)

/-- What the estimator holds at an instant of the completions so far. -/
structure Recounts (e : Estimator) (cs : List Completion) (t : Instant) : Prop where
  upTo : UpTo cs t
  outcomes : e.outcomes =
    ((cs.rtake e.config.maxSamples).filter (Completion.isSince (t.before? e.config.retention))).map
      Completion.outcome

/-- What the samples are when the cap has dropped none. -/
structure Closes (e : Estimator) (cs : List Completion) (t : Instant) : Prop where
  within : e.samples.length ≤ e.config.maxSamples
  closed : (Sample.closedOf e.samples).Perm
    ((cs.filter (Completion.isSince (t.before? e.config.retention))).map Completion.sample)

/-- What is dropped later for its age includes what was dropped before. -/
theorem filter_isSince_filter {u v : Duration} (hst : s ≤ t) (huv : u ≤ v) (cs : List Completion) :
    (cs.filter (Completion.isSince (s.before? v))).filter (Completion.isSince (t.before? u)) =
      cs.filter (Completion.isSince (t.before? u)) :=
  History.filter_isSince_filter hst huv cs

theorem Recounts.write (h : e.Recounts cs t) (ht : t ≤ w.now) :
    (e.write w).Recounts (cs ++ w.completion?.toList) w.now := by
  have hupTo : UpTo (cs ++ w.completion?.toList) w.now := h.upTo.write ht
  refine ⟨hupTo, ?_⟩
  have hheld : (e.noted w).outcomes =
      (History.held Completion.at_ e.config.retention e.config.maxSamples cs t ++
        w.completion?.toList).map Completion.outcome := by
    rw [outcomes_noted, h.outcomes, List.map_append]
    rfl
  have hsorted : (e.noted w).outcomes.Pairwise fun a b => a.at_ ≤ b.at_ := by
    rw [hheld, List.pairwise_map]
    exact hupTo.ordered.sublist ((History.held_sublist _ _ _ _ _).append_right _)
  rw [write_eq_prune, outcomes_prune hsorted, config_prune, config_noted, hheld, List.filter_map,
    rtake_map]
  exact congrArg _ (History.held_append hupTo.ordered ht)

theorem Closes.write (h : e.Closes cs t) (ht : t ≤ w.now)
    (hw : ((e.noted w).unexpired w.now).length ≤ e.config.maxSamples) :
    (e.write w).Closes (cs ++ w.completion?.toList) w.now := by
  have hsamples : (e.write w).samples = (e.noted w).unexpired w.now := by
    rw [write_eq_prune, samples_prune, config_noted, Nat.sub_eq_zero_of_le hw,
      Sample.dropClosed_zero]
  have hnoted : (Sample.closedOf (e.noted w).samples).Perm
      ((cs.filter (Completion.isSince (t.before? e.config.retention)) ++
        w.completion?.toList).map Completion.sample) := by
    rw [List.map_append]
    exact (closedOf_noted e w).trans (h.closed.append_right _)
  refine ⟨by rwa [hsamples, config_write], ?_⟩
  rw [hsamples, config_write, ← config_noted e w]
  refine (closedOf_unexpired w.now hnoted).trans (.of_eq ?_)
  rw [List.filter_append, List.filter_append, config_noted,
    filter_isSince_filter ht (Nat.le_refl _ : e.config.retention ≤ _)]

theorem completions_cons (w : Write) (ws : List Write) :
    completions (w :: ws) = w.completion?.toList ++ completions ws := by
  rw [completions, List.filterMap_cons]
  cases w.completion? <;> rfl

theorem Recounts.after (h : e.Recounts cs t) {ws : List Write}
    (ordered : (t :: (ws.map Write.now ++ [now])).Pairwise (· ≤ ·)) :
    ∃ t', t' ≤ now ∧ (e.after ws).Recounts (cs ++ completions ws) t' ∧
      (e.WithinCap ws → e.Closes cs t → (e.after ws).Closes (cs ++ completions ws) t') := by
  induction ws generalizing e cs t with
  | nil =>
    refine ⟨t, List.rel_of_pairwise_cons ordered (List.mem_singleton_self now), ?_, fun _ hc => ?_⟩
    · simpa [completions, Estimator.after] using h
    · simpa [completions, Estimator.after] using hc
  | cons w ws ih =>
    obtain ⟨hle, hrest⟩ := List.pairwise_cons.1 ordered
    have ht : t ≤ w.now := hle w.now (List.mem_cons_self ..)
    obtain ⟨t', ht', hr, hc⟩ := ih (h.write ht) hrest
    rw [completions_cons, ← List.append_assoc]
    exact ⟨t', ht', hr, fun hw hclosed => hc hw.2 (hclosed.write ht hw.1)⟩

/-- The completions of a window among the last ones of a run. -/
def recent (last : Nat) (ws : List Write) (now : Instant) (window : Duration) : List Completion :=
  ((completions ws).rtake last).filter (Completion.isSince (now.before? window))

theorem config_after (e : Estimator) (ws : List Write) : (e.after ws).config = e.config := by
  induction ws generalizing e with
  | nil => rfl
  | cons w ws ih => exact (ih (e.write w)).trans (config_write e w)

variable {window : Duration}

theorem Recounts.filter_outcomes (h : e.Recounts cs t) (ht : t ≤ now)
    (hwindow : window ≤ e.config.retention) :
    (e.outcomes.filter fun o => Instant.isSince (now.before? window) o.at_) =
      ((cs.rtake e.config.maxSamples).filter (Completion.isSince (now.before? window))).map
        Completion.outcome := by
  rw [h.outcomes, List.filter_map]
  exact congrArg _ (filter_isSince_filter ht hwindow _)

theorem filterMap_responseSince?_sample (cutoff : Option Instant) (cs : List Completion) :
    (cs.map Completion.sample).filterMap (Sample.responseSince? cutoff) =
      (cs.filter (Completion.isSince cutoff)).map Completion.took := by
  induction cs with
  | nil => rfl
  | cons c cs ih =>
    by_cases hc : c.isSince cutoff = true
    · have hsome : Sample.responseSince? cutoff c.sample = some c.took := if_pos hc
      rw [List.map_cons, List.filterMap_cons_some hsome, ih, List.filter_cons_of_pos hc,
        List.map_cons]
    · have hnone : Sample.responseSince? cutoff c.sample = none := if_neg hc
      rw [List.map_cons, List.filterMap_cons_none hnone, ih, List.filter_cons_of_neg hc]

theorem Closes.responseTimes (hc : e.Closes cs t) (hr : e.Recounts cs t) (ht : t ≤ now)
    (hwindow : window ≤ e.config.retention) :
    (e.responseTimes now window).Perm
      (((cs.rtake e.config.maxSamples).filter (Completion.isSince (now.before? window))).map
        Completion.took) := by
  have hlength : (cs.filter (Completion.isSince (t.before? e.config.retention))).length ≤
      e.config.maxSamples := by
    rw [← List.length_map Completion.sample, ← hc.closed.length_eq]
    exact Nat.le_trans (List.length_filter_le _ _) hc.within
  rw [Estimator.responseTimes, ← Sample.filterMap_responseSince?_closedOf]
  refine (hc.closed.filterMap _).trans (.of_eq ?_)
  -- The closed units are few enough to be among the last completions.
  have hordered : cs.Pairwise fun a b =>
      a.isSince (t.before? e.config.retention) = true →
        b.isSince (t.before? e.config.retention) = true :=
    History.pairwise_isSince hr.upTo.ordered
  rw [filterMap_responseSince?_sample, ← rtake_of_length_le hlength, ← filter_rtake hordered,
    filter_isSince_filter ht hwindow]

/-- On a clock that does not go backwards, what a window shows is what the whole run has in it, as
if nothing were ever dropped for its age: the completions, among the last ones that the cap allows,
and the errors. As long as the cap drops no sample the average response time is that of the same
completions, whichever running units they closed. -/
theorem windowStats_of_run (config : CapacityConfig) (ws : List Write) (now : Instant)
    (window : Duration) (ordered : (ws.map Write.now ++ [now]).Pairwise (· ≤ ·))
    (short : window ≤ config.retention) :
    let stats := ((new config).after ws).windowStats now window
    let shown := recent (max config.maxSamples 1) ws now window
    stats.completed = shown.length ∧
    stats.errors = shown.countP Completion.isError ∧
    ((new config).WithinCap ws → stats.avgResponseTime.nanoseconds =
      (shown.map fun c => c.took.nanoseconds).sum / shown.length) := by
  intro stats shown
  obtain ⟨t, ht⟩ := Instant.exists_pairwise_cons ordered
  have hnew : (new config).Recounts [] t := ⟨⟨.nil, by simp⟩, by simp [new]⟩
  obtain ⟨t', ht', hr, hc⟩ := hnew.after ht
  rw [List.nil_append] at hr hc
  have hconfig : ((new config).after ws).config = config.normalized := config_after _ ws
  have hshort : window ≤ ((new config).after ws).config.retention := by rwa [hconfig]
  have hshown : (((new config).after ws).outcomes.filter fun o =>
      Instant.isSince (now.before? window) o.at_) = shown.map Completion.outcome := by
    rw [hr.filter_outcomes ht' hshort, hconfig]
    rfl
  refine ⟨?_, ?_, fun hcap => ?_⟩
  · change (List.filter _ _).length = _
    rw [hshown, List.length_map]
  · change ((List.filter _ _).filter _).length = _
    rw [hshown, ← List.countP_eq_length_filter, List.countP_map]
    rfl
  · have hclosed : (new config).Closes [] t := ⟨Nat.zero_le _, .nil⟩
    have htimes := (hc hcap hclosed).responseTimes hr ht' hshort
    rw [hconfig] at htimes
    change (Duration.sum _).nanoseconds / _ = _
    rw [Duration.nanoseconds_sum, (htimes.map Duration.nanoseconds).sum_eq, htimes.length_eq, List.length_map,
      List.map_map]
    rfl

/-- Of three completions the first is dropped for its age; the second closes the unit that was
started last, the third the unit that was started first. -/
theorem windowStats_of_three_completions :
    let config : CapacityConfig := { maxSamples := 4 }
    let ws : List Write :=
      [.start ⟨0⟩, .start ⟨1000000000⟩, .complete ⟨2000000000⟩ ⟨1000000000⟩ false,
        .start ⟨400000000000⟩, .complete ⟨401000000000⟩ ⟨401000000000⟩ true,
        .complete ⟨405000000000⟩ ⟨5000000000⟩ false]
    let now : Instant := ⟨430000000000⟩
    let stats := ((new config).after ws).windowStats now config.decisionWindow
    (ws.map Write.now ++ [now]).Pairwise (· ≤ ·) ∧ config.decisionWindow ≤ config.retention ∧
      (new config).WithinCap ws ∧ stats.completed = 2 ∧ stats.errors = 1 ∧
      stats.avgResponseTime.nanoseconds = 203000000000 := by
  intro config ws now stats
  have ordered : (ws.map Write.now ++ [now]).Pairwise (· ≤ ·) := by decide
  have short : config.decisionWindow ≤ config.retention := by decide
  have within : (new config).WithinCap ws := by decide
  have shown : recent 4 ws now config.decisionWindow =
      [⟨⟨401000000000⟩, ⟨401000000000⟩, true⟩, ⟨⟨405000000000⟩, ⟨5000000000⟩, false⟩] := by
    decide
  obtain ⟨hcompleted, herrors, haverage⟩ :=
    windowStats_of_run config ws now config.decisionWindow ordered short
  rw [show max config.maxSamples 1 = 4 from rfl, shown] at hcompleted herrors haverage
  exact ⟨ordered, short, within, hcompleted, herrors, haverage within⟩

end Estimator

end TieredAdmission

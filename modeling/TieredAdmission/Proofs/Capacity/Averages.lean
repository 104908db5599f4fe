import TieredAdmission.Proofs.Capacity.Level
import TieredAdmission.Proofs.Capacity.Windows
import Mathlib.Data.List.Perm.Subperm

/-!
# Averages at the cap

Outcomes and response times are kept in two histories. Both have the same cap, but in the history of
response times the running units count as well, so the two tell of the same completions only as long
as the cap drops no sample. What is averaged are always response times of completions in the window;
a start never adds to them, and takes one away when it brings the samples above the cap. With a full
history a start can therefore lower the average, and so raise the concurrency level.
-/

namespace TieredAdmission

namespace Sample

private theorem dropClosed_sublist (n : Nat) (ss : List Sample) : (dropClosed n ss).Sublist ss := by
  induction ss generalizing n with
  | nil => simp [dropClosed]
  | cons s rest ih =>
    cases n with
    | zero => exact .refl _
    | succ n =>
      simp only [dropClosed]
      split
      · exact (ih (n + 1)).cons_cons s
      · exact (ih n).cons s

end Sample

namespace Estimator

variable {e : Estimator} {w : Write} {cs : List Completion} {t now : Instant} {window : Duration}

private theorem unexpired_sublist (e : Estimator) (now : Instant) :
    (e.unexpired now).Sublist e.samples := by
  unfold unexpired
  split
  · exact .refl _
  · exact List.filter_sublist

theorem samples_prune_sublist (e : Estimator) (now : Instant) :
    (e.prune now).samples.Sublist e.samples := by
  rw [samples_prune]
  exact (Sample.dropClosed_sublist _ _).trans (unexpired_sublist e now)

/-! ### What is averaged -/

/-- The closed samples are those of completions, each of them once. -/
theorem closedOf_write_subperm (h : (Sample.closedOf e.samples).Subperm (cs.map Completion.sample)) :
    (Sample.closedOf (e.write w).samples).Subperm
      ((cs ++ w.completion?.toList).map Completion.sample) := by
  have hsub : (Sample.closedOf (e.write w).samples).Sublist (Sample.closedOf (e.noted w).samples) := by
    rw [write_eq_prune]
    exact (samples_prune_sublist _ _).filter _
  have hnoted := (closedOf_noted e w).subperm
  rw [List.map_append]
  exact hsub.subperm.trans (hnoted.trans ((List.subperm_append_right _).2 h))

private theorem closedOf_after_subperm (ws : List Write)
    (h : (Sample.closedOf e.samples).Subperm (cs.map Completion.sample)) :
    (Sample.closedOf (e.after ws).samples).Subperm
      ((cs ++ completions ws).map Completion.sample) := by
  induction ws generalizing e cs with
  | nil => simpa [completions, Estimator.after] using h
  | cons w ws ih =>
    rw [completions_cons, ← List.append_assoc]
    exact ih (closedOf_write_subperm h)

/-- The response times averaged are those of completions in the window, each of them once. -/
theorem responseTimes_subperm (h : (Sample.closedOf e.samples).Subperm (cs.map Completion.sample))
    (now : Instant) (window : Duration) :
    (e.responseTimes now window).Subperm
      ((cs.filter (Completion.isSince (now.before? window))).map Completion.took) := by
  rw [responseTimes, ← Sample.filterMap_responseSince?_closedOf,
    ← filterMap_responseSince?_sample]
  obtain ⟨ss, hperm, hsub⟩ := h
  exact ⟨_, hperm.filterMap _, hsub.filterMap _⟩

private theorem avgResponseTime_eq_of_perm
    (h : (e.responseTimes now window).Perm (cs.map Completion.took)) :
    (e.windowStats now window).avgResponseTime.nanoseconds =
      (cs.map fun c => c.took.nanoseconds).sum / cs.length := by
  change (Duration.sum _).nanoseconds / _ = _
  rw [Duration.nanoseconds_sum, (h.map Duration.nanoseconds).sum_eq, h.length_eq, List.length_map,
    List.map_map]
  rfl

/-! ### What a start changes -/

private theorem responseTimes_running (e : Estimator) (now t : Instant) (window : Duration) :
    (e.noted (.start t)).responseTimes now window = e.responseTimes now window := by
  change (e.samples ++ [Sample.running]).filterMap _ = e.samples.filterMap _
  rw [List.filterMap_append]
  exact List.append_nil _

private theorem responseTimes_recordStart_sublist (e : Estimator) (now : Instant)
    (window : Duration) :
    ((e.recordStart now).responseTimes now window).Sublist (e.responseTimes now window) := by
  rw [← responseTimes_running e now now window]
  exact (samples_prune_sublist _ _).filterMap _

/-- Samples in the window are not too old for a retention that is no shorter. -/
theorem filterMap_responseSince?_unexpired (e : Estimator) (now : Instant)
    (short : window ≤ e.config.retention) :
    (e.unexpired now).filterMap (Sample.responseSince? (now.before? window)) =
      e.responseTimes now window := by
  unfold unexpired
  split
  · rfl
  · next cutoff hcutoff =>
    rw [responseTimes, List.filterMap_filter]
    refine List.filterMap_congr fun s _ => ?_
    cases s with
    | running => rfl
    | closed at_ took =>
      by_cases hin : Instant.isSince (now.before? window) at_ = true
      · have hkept := Instant.isSince_before?_mono (Int.le_refl _ : now ≤ now) short hin
        rw [hcutoff, Instant.isSince_some] at hkept
        exact if_pos hkept
      · have hnone : Sample.responseSince? (now.before? window) (.closed at_ took) = none :=
          if_neg hin
        rw [hnone, ite_self]

/-- A start that does not bring the samples above the cap leaves what is averaged as it is. -/
theorem responseTimes_recordStart (room : e.WithinCap [.start now])
    (short : window ≤ e.config.retention) :
    (e.recordStart now).responseTimes now window = e.responseTimes now window := by
  have hsamples : (e.recordStart now).samples = (e.noted (.start now)).unexpired now := by
    have hroom : ((e.noted (.start now)).unexpired now).length ≤ e.config.maxSamples := room.1
    change ((e.noted (.start now)).prune now).samples = _
    rw [samples_prune, config_noted, Nat.sub_eq_zero_of_le hroom, Sample.dropClosed_zero]
  have hshort : window ≤ (e.noted (.start now)).config.retention := short
  rw [responseTimes, hsamples, filterMap_responseSince?_unexpired _ _ hshort,
    responseTimes_running]

private theorem avgResponseTime_recordStart (room : e.WithinCap [.start now])
    (short : window ≤ e.config.retention) :
    ((e.recordStart now).windowStats now window).avgResponseTime =
      (e.windowStats now window).avgResponseTime := by
  change (Duration.sum _).share (List.length _) = (Duration.sum _).share (List.length _)
  rw [responseTimes_recordStart room short]

private theorem Recounts.outcomes_recordStart (h : e.Recounts cs t) (ht : t ≤ now)
    (short : window ≤ e.config.retention) :
    ((e.recordStart now).outcomes.filter fun o => Instant.isSince (now.before? window) o.at_) =
      e.outcomes.filter fun o => Instant.isSince (now.before? window) o.at_ := by
  have hstart : (e.recordStart now).Recounts (cs ++ []) now := h.write (w := .start now) ht
  rw [List.append_nil] at hstart
  rw [h.filter_outcomes ht short]
  exact hstart.filter_outcomes (Int.le_refl _) short

/-- On a clock that does not go backwards the response times averaged are those of completions in
the window, each of them once, and as long as the cap drops no sample they are those of exactly the
completions that are counted, so the average is theirs. A start changes neither the completions
counted nor the errors, and adds nothing to what is averaged; if it does not bring the samples above
the cap it leaves the average as it is, and so the level of a decision window that is no longer than
the retention. -/
theorem averages_of_run (config : CapacityConfig) (ws : List Write) (now : Instant)
    (window : Duration) (ordered : (ws.map Write.now ++ [now]).Pairwise (· ≤ ·))
    (short : window ≤ config.retention) :
    let e := (new config).after ws
    let e' := e.recordStart now
    let stats := e.windowStats now window
    let stats' := e'.windowStats now window
    let counted := recent (max config.maxSamples 1) ws now window
    stats.completed = counted.length ∧
    (e.responseTimes now window).Subperm
      (((completions ws).filter (Completion.isSince (now.before? window))).map Completion.took) ∧
    ((new config).WithinCap ws →
      (e.responseTimes now window).Perm (counted.map Completion.took) ∧
      stats.avgResponseTime.nanoseconds =
        (counted.map fun c => c.took.nanoseconds).sum / counted.length) ∧
    stats'.completed = stats.completed ∧ stats'.errors = stats.errors ∧
    (e'.responseTimes now window).Sublist (e.responseTimes now window) ∧
    (e.WithinCap [.start now] →
      stats'.avgResponseTime = stats.avgResponseTime ∧
      (config.decisionWindow ≤ config.retention → ∀ processing,
        (e'.currentBudget now processing).maxConcurrent =
          (e.currentBudget now processing).maxConcurrent)) := by
  intro e e' stats stats' counted
  obtain ⟨t, ht⟩ := Instant.exists_pairwise_cons ordered
  have hnew : (new config).Recounts [] t := ⟨⟨.nil, by simp⟩, by simp [new]⟩
  obtain ⟨t', ht', hr, hc⟩ := hnew.after ht
  rw [List.nil_append] at hr hc
  have hconfig : e.config = config.normalized := config_after _ ws
  have hshort : window ≤ e.config.retention := by rwa [hconfig]
  have houtcomes := hr.outcomes_recordStart ht' hshort
  refine ⟨?_, ?_, fun hcap => ?_, ?_, ?_, responseTimes_recordStart_sublist e now window,
    fun room => ⟨?_, fun hdecision => ?_⟩⟩
  · change (List.filter _ e.outcomes).length = _
    rw [hr.filter_outcomes ht' hshort, List.length_map]
    change (List.filter _ ((completions ws).rtake e.config.maxSamples)).length = _
    rw [hconfig]
    rfl
  · have hnone : (Sample.closedOf (new config).samples).Subperm ([].map Completion.sample) :=
      List.nil_subperm
    exact responseTimes_subperm (closedOf_after_subperm ws hnone) now window
  · have hclosed : (new config).Closes [] t := ⟨Nat.zero_le _, .nil⟩
    have htimes := (hc hcap hclosed).responseTimes hr ht' hshort
    have hcounted : (e.responseTimes now window).Perm (counted.map Completion.took) := by
      change (e.responseTimes now window).Perm (List.map _ (List.filter _
        ((completions ws).rtake e.config.maxSamples))) at htimes
      rwa [hconfig] at htimes
    exact ⟨hcounted, avgResponseTime_eq_of_perm hcounted⟩
  · exact congrArg List.length houtcomes
  · exact congrArg (fun os => (os.filter OutcomeSample.isError).length) houtcomes
  · exact avgResponseTime_recordStart room hshort
  · have hdecision' : config.decisionWindow ≤ e.config.retention := by rwa [hconfig]
    have hconfig' : e'.config = config.normalized := (config_write e (.start now)).trans hconfig
    intro processing
    rw [maxConcurrent_eq hconfig, maxConcurrent_eq hconfig',
      avgResponseTime_recordStart room hdecision']

/-- Two completions within the cap of three: a start leaves their average as it is. -/
theorem averages_of_two_completions :
    let config : CapacityConfig := { maxSamples := 3 }
    let ws : List Write :=
      [.start ⟨0⟩, .complete ⟨1000000000⟩ ⟨1000000000⟩ false, .start ⟨1000000000⟩,
        .complete ⟨3000000000⟩ ⟨2000000000⟩ true]
    let now : Instant := ⟨4000000000⟩
    let window := config.decisionWindow
    let e := (new config).after ws
    (ws.map Write.now ++ [now]).Pairwise (· ≤ ·) ∧ window ≤ config.retention ∧
      (new config).WithinCap ws ∧ e.WithinCap [.start now] ∧
      (e.windowStats now window).completed = 2 ∧
      (e.windowStats now window).avgResponseTime.nanoseconds = 1500000000 ∧
      ((e.recordStart now).windowStats now window).avgResponseTime.nanoseconds = 1500000000 := by
  intro config ws now window e
  have ordered : (ws.map Write.now ++ [now]).Pairwise (· ≤ ·) := by decide
  have short : window ≤ config.retention := by decide
  have within : (new config).WithinCap ws := by decide
  have room : e.WithinCap [.start now] := by decide
  have counted : recent 3 ws now window =
      [⟨⟨1000000000⟩, ⟨1000000000⟩, false⟩, ⟨⟨3000000000⟩, ⟨2000000000⟩, true⟩] := by decide
  obtain ⟨hcompleted, -, haverage, -, -, -, hstart⟩ :=
    averages_of_run config ws now window ordered short
  rw [show max config.maxSamples 1 = 3 from rfl, counted] at hcompleted haverage
  refine ⟨ordered, short, within, room, hcompleted, (haverage within).2, ?_⟩
  rw [(hstart room).1]
  exact (haverage within).2

/-- With a cap of four, the fourth unit that starts takes the only response time away. The
completion is still counted, its twenty seconds are averaged no more, and the level rises from one
to six. -/
theorem start_over_cap_raises_level :
    let config : CapacityConfig := { maxSamples := 4 }
    let now : Instant := .origin
    let window := config.decisionWindow
    let ws : List Write :=
      [.start now, .complete now (.ofSeconds 20) false, .start now, .start now, .start now]
    let e := (new config).after ws
    let e' := e.recordStart now
    (ws.map Write.now ++ [now]).Pairwise (· ≤ ·) ∧ window ≤ config.retention ∧
      ((e.windowStats now window).completed = 1 ∧
        (e.windowStats now window).avgResponseTime = .ofSeconds 20 ∧
        (e.currentBudget now 3).maxConcurrent = 1) ∧
      (e'.windowStats now window).completed = 1 ∧
      (e'.windowStats now window).avgResponseTime = .zero ∧
      (e'.currentBudget now 4).maxConcurrent = 6 := by
  intro config now window ws e e'
  have hbefore : (e.windowStats now window).avgResponseTime = .ofSeconds 20 := by decide
  have hafter : (e'.windowStats now window).avgResponseTime = .zero := by decide
  have hconfig : e.config = config.normalized := config_after _ ws
  have hconfig' : e'.config = config.normalized := (config_write e (.start now)).trans hconfig
  have hsorted : config.normalized.thresholds = config.thresholds :=
    CapacityConfig.thresholds_normalized_of_sorted (by decide)
  have hlevel (avg : Duration) :
      config.normalized.concurrencyFor avg = config.concurrencyFor avg := by
    rw [CapacityConfig.concurrencyFor, hsorted]
    rfl
  -- The levels are opened by hand: sorting the thresholds does not evaluate.
  refine ⟨by decide, by decide, ⟨by decide, hbefore, ?_⟩, by decide, hafter, ?_⟩
  · rw [maxConcurrent_eq hconfig, hbefore, hlevel]
    rfl
  · rw [maxConcurrent_eq hconfig', hafter, hlevel]
    rfl

end Estimator

end TieredAdmission

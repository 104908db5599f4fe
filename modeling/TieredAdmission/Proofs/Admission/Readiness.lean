import TieredAdmission.Admission.Report
import TieredAdmission.Proofs.Admission.BreakerGate
import TieredAdmission.Proofs.Capacity.Level

/-!
# Readiness

The health report and a submission answer the same question about the breaker in two ways. The
report shows the state in which the last operation left it, while a submission first lets an open
breaker whose timeout has passed begin to probe. Up to the timeout they agree. After it the report
still says that the breaker is open, and as only a submission makes it probe, a host that sends
nothing while it is told not to be ready stays so, however late it asks.
-/

namespace TieredAdmission

def Operation.isSubmission : Operation → Bool
  | .submit _ _ => true
  | .beginCall _ _ | .endCall _ _ _ | .cancel _ | .abandon _ | .drain _ | .passTime _ => false

namespace Controller

variable {c : Controller} {q : Request} {now : Instant}

/-- The submission is refused because the breaker is open, and that is the one answer it brings. -/
def FindsOpen (c : Controller) (q : Request) (now : Instant) : Prop :=
  ∃ rate, (c.submit q now).resolutions = c.resolutions.push
    ⟨c.statistics.counters.total, q.id, .error (.breakerOpen q.tier .opened rate)⟩

private theorem not_findsOpen_of_size_eq
    (h : (c.submit q now).resolutions.size = c.resolutions.size) : ¬ c.FindsOpen q now := by
  rintro ⟨rate, hr⟩
  rw [hr, Array.size_push] at h
  omega

/-- A submission that the breaker is asked about finds it open exactly when the check leaves it
open. -/
theorem Tracked.findsOpen_iff (h : c.Tracked) (hp : c.breaker.pending = [])
    (hrun : c.gate.phase = .running) (hnew : c.scheduler.contains q.id = false) :
    c.FindsOpen q now ↔ (c.breaker.probe now).state = .opened := by
  have hrun' : (c.receive now).gate.phase = .running := by rw [gate_receive, hrun]
  have hnew' := (h.contains_receive now q.id).trans hnew
  have hstate : (c.submit q now).breaker.state = (c.breaker.probe now).state := by
    rw [(h.shows_submit hp q now).breaker, breakerAsked, if_pos ⟨hrun, hnew⟩]
  obtain ⟨path, hj⟩ := judged_submit (q := q) (h.receive now).scheduler
  cases path with
  | some path =>
    have hnone := hj.resolutions_some.trans (resolutions_receive c now)
    have hadmits := hj.admission.2.1
    rw [breaker_receive] at hadmits
    exact iff_of_false (not_findsOpen_of_size_eq (congrArg Array.size hnone))
      (CircuitBreaker.state_probe_ne_opened_iff.2 hadmits.1)
  | none =>
    have hrefusal := (hj.refusal hrun' hnew').2
    rw [resolutions_receive, hstate] at hrefusal
    constructor
    · rintro ⟨rate, hr⟩
      have htold := Array.push_inj_right.1 (hrefusal.symm.trans hr)
      simp only [Resolution.mk.injEq, Except.error.injEq, AdmissionError.breakerOpen.injEq] at htold
      exact htold.2.2.2.1
    · intro ho
      rw [ho] at hrefusal
      exact ⟨((c.receive now).budget now).errorRate, hrefusal⟩

/-- Nothing but a submission takes the breaker out of the open state. -/
theorem Tracked.opened_after (h : c.Tracked) (hp : c.breaker.pending = [])
    (ho : c.breaker.state = .opened) {ops : List Operation}
    (hops : ∀ op ∈ ops, op.isSubmission = false) : (c.after ops).breaker.state = .opened := by
  induction ops generalizing c with
  | nil => exact ho
  | cons op ops ih =>
    have hb := (h.shows_apply hp op).breaker
    refine ih (h.apply op) (by rw [hb]) ?_ fun op hop => hops op (List.mem_cons_of_mem _ hop)
    rw [hb]
    refine (opened_breakerAfter ho op).resolve_right ?_
    rintro ⟨q, now, rfl, -⟩
    cases hops _ List.mem_cons_self

/-- A running controller reports an open breaker, and with it that it is unhealthy and not ready,
whenever a submission of a new request would find the breaker open. The converse holds only until
the timeout has passed since the last failed completion of the run; later the submission makes the
breaker probe, but the report is open until one is made. -/
theorem open_report_until_timeout (config : AdmissionConfig) (ops : List Operation) :
    let c := (new config).after ops
    let elapsed (now : Instant) : Prop := ∃ failed,
      ((new config).failures ops).getLast? = some failed ∧
        config.breaker.openTimeout < now.since failed
    (c.healthReport.breaker = .opened →
      c.healthReport.state = .unhealthy ∧ c.healthReport.ready = false) ∧
    (∀ q now, c.gate.phase = .running → c.scheduler.contains q.id = false →
      (c.FindsOpen q now ↔ c.healthReport.breaker = .opened ∧ ¬ elapsed now)) ∧
    ∀ more, (∀ op ∈ more, op.isSubmission = false) → c.healthReport.breaker = .opened →
      (c.after more).healthReport.breaker = .opened := by
  intro c elapsed
  have h : c.Tracked := tracked_after config ops
  have hw : c.Watched config ((new config).failures ops).getLast? := watched_after config ops
  have hreport : c.healthReport.breaker = c.breaker.state := rfl
  refine ⟨fun ho => ⟨?_, ?_⟩, fun q now hrun hnew => ?_, fun more hmore ho => ?_⟩
  · exact if_pos (Or.inr ho)
  · rw [hreport] at ho
    simp [healthReport, HealthConfig.report, HealthConfig.isReady, ho]
  · rw [h.findsOpen_iff hw.pending hrun hnew, hreport]
    by_cases ho : c.breaker.state = .opened
    · have hiff : elapsed now ↔ c.breaker.timeoutPassed now = true :=
        (hw.timeoutPassed_iff ho).symm
      rw [CircuitBreaker.state_probe, hiff]
      by_cases hpassed : c.breaker.timeoutPassed now = true <;> simp [ho, hpassed]
    · rw [CircuitBreaker.state_probe, if_neg fun hn => ho hn.1]
      simp [ho]
  · exact h.opened_after hw.pending ho hmore

/-- With a threshold of one, a call that fails at the start leaves the breaker open. A hundred
seconds later the report still says so and that the core is not ready, and a submission made at that
instant is admitted. -/
theorem open_report_outlives_timeout :
    let config : AdmissionConfig := { breaker := { tripThreshold := 1 } }
    let failing : CallOutcome := .answered (.error (.failed "a refused"))
    let ops : List Operation :=
      [.submit ⟨"a", .free, .null, {}⟩ .origin, .beginCall 0 .origin, .endCall "a" failing .origin]
    let c := (new config).after ops
    let q : Request := ⟨"b", .free, .null, {}⟩
    let now : Instant := ⟨100000000000⟩
    (c.gate.phase = .running ∧ c.scheduler.contains q.id = false) ∧
      (c.healthReport.breaker = .opened ∧ c.healthReport.state = .unhealthy ∧
        c.healthReport.ready = false) ∧
      .admitted "b" .free .immediate ∈ c.news (c.submit q now) ∧ ¬ c.FindsOpen q now := by
  intro config failing ops c q now
  have hnormal : ({} : CapacityConfig).normalized = {} :=
    CapacityConfig.normalized_of_sorted (by decide) (by decide) (by decide)
  -- The kernel evaluates the run, once the thresholds need no sorting.
  have hnew : new config = { new config with estimator := { config := {} } } := by
    rw [new, Estimator.new, hnormal]
  have hc : c = { new config with estimator := { config := {} } }.after ops := by rw [← hnew]
  rw [hc]
  exact ⟨by decide +kernel, by decide +kernel, by decide +kernel,
    not_findsOpen_of_size_eq (by decide +kernel)⟩

end Controller

end TieredAdmission

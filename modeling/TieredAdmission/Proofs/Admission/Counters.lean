import TieredAdmission.Admission.Report
import TieredAdmission.Proofs.Admission.Delivery

/-!
# Counters, events and requests in hand

Three records of the same submissions are kept apart: the lifetime counters, the events, and what
the scheduler has in hand. The counters can be worked out from the events alone, and every
submission that is counted has ended in one of four ways or is in hand. In the middle of a
submission it is counted and nothing is decided on it yet, so the invariant has a place for it.
-/

namespace TieredAdmission

namespace AdmissionEvent

def isRejection : AdmissionEvent → Bool
  | rejected _ _ _ => true
  | _ => false

def isCancellation : AdmissionEvent → Bool
  | cancelled _ _ => true
  | _ => false

def isCompletion (success : Bool) : AdmissionEvent → Bool
  | completed _ _ s _ => s == success
  | _ => false

end AdmissionEvent

def Resolution.isRejection (r : Resolution) : Bool :=
  match r.result with
  | .ok _ => false
  | .error error => error.isRejection

namespace RequestCounters

def ended (k : RequestCounters) : Nat := k.succeeded + k.failed + k.rejected + k.cancelled

def note (k : RequestCounters) : AdmissionEvent → RequestCounters
  | .admitted _ _ _ => { k with total := k.total + 1 }
  | .rejected _ _ _ => { k with total := k.total + 1, rejected := k.rejected + 1 }
  | .cancelled _ _ => { k with cancelled := k.cancelled + 1 }
  | .completed _ _ success _ => Statistics.countCompletion k success
  | .dispatched _ _ _ | .breakerTransition _ _ => k

open AdmissionEvent in
theorem foldl_note (k : RequestCounters) (es : List AdmissionEvent) :
    es.foldl note k =
      { total := k.total + es.countP isAdmission + es.countP isRejection
        succeeded := k.succeeded + es.countP (isCompletion true)
        failed := k.failed + es.countP (isCompletion false)
        rejected := k.rejected + es.countP isRejection
        cancelled := k.cancelled + es.countP isCancellation } := by
  induction es generalizing k with
  | nil => rfl
  | cons e es ih =>
    rw [List.foldl_cons, ih]
    cases e with
    | completed id tier success ms =>
      cases success <;>
        simp [note, Statistics.countCompletion, isAdmission, isRejection, isCompletion,
          isCancellation] <;> omega
    | admitted | dispatched | rejected | cancelled | breakerTransition =>
      simp [note, List.countP_cons, isAdmission, isRejection, isCompletion, isCancellation] <;> omega

private theorem foldl_note_transitions (ts : List BreakerTransition) (k : RequestCounters) :
    (ts.map fun t => AdmissionEvent.breakerTransition t.source t.target).foldl note k = k :=
  List.foldl_map.trans (List.foldl_fixed' (fun _ => rfl) ts)

private theorem ended_recordRejection (s : Statistics) :
    s.recordRejection.counters.ended = s.counters.ended + 1 := by
  simp only [ended, Statistics.recordRejection]
  omega

private theorem ended_recordCancellation (s : Statistics) :
    s.recordCancellation.counters.ended = s.counters.ended + 1 := by
  simp only [ended, Statistics.recordCancellation]
  omega

private theorem ended_countCompletion (k : RequestCounters) (success : Bool) :
    (Statistics.countCompletion k success).ended = k.ended + 1 := by
  cases success <;> simp only [Statistics.countCompletion, ended] <;> simp <;> omega

private theorem rejected_countCompletion (k : RequestCounters) (success : Bool) :
    (Statistics.countCompletion k success).rejected = k.rejected := by
  cases success <;> rfl

end RequestCounters

namespace Controller

open RequestCounters

variable {c c' : Controller} {now : Instant} {undecided : Nat}

/-- The counters that the events account for. -/
def toldCounters (c : Controller) : RequestCounters := c.events.history.toList.foldl note {}

/-- The counters, the events and the requests in hand agree, but for the submissions that are
counted and on which nothing is decided yet. -/
structure Accounts (undecided : Nat) (c : Controller) : Prop where
  told : c.statistics.counters =
    { c.toldCounters with total := c.toldCounters.total + undecided }
  conserved : c.statistics.counters.total =
    c.statistics.counters.ended + c.inHand + undecided
  rejections : c.statistics.counters.rejected =
    c.resolutions.toList.countP Resolution.isRejection

theorem accounts_new (config : AdmissionConfig) : (new config).Accounts 0 where
  told := rfl
  conserved := by
    simp [new, inHand, ended, Statistics.new, Scheduler.queued, Scheduler.processing,
      Scheduler.roster_new, PerTier.const, PerTier.total]
  rejections := rfl

theorem Accounts.congr (h : c.Accounts undecided) (hs : c'.statistics = c.statistics)
    (ht : c'.toldCounters = c.toldCounters) (hi : c'.inHand = c.inHand)
    (hr : c'.resolutions = c.resolutions) : c'.Accounts undecided where
  told := by rw [hs, ht, h.told]
  conserved := by rw [hs, hi, h.conserved]
  rejections := by rw [hs, hr, h.rejections]

theorem toldCounters_eq {es : List AdmissionEvent}
    (h : c'.events.history.toList = c.events.history.toList ++ es) :
    c'.toldCounters = es.foldl note c.toldCounters := by
  rw [toldCounters, h, List.foldl_append]
  rfl

theorem TellsOfDispatches.toldCounters (h : c.TellsOfDispatches c') :
    c'.toldCounters = c.toldCounters := by
  obtain ⟨es, hes, hdispatch⟩ := h
  rw [toldCounters_eq hes, AdmissionEvent.foldl_dispatches (fun _ _ _ _ => rfl) hdispatch]

theorem TellsOfBreaker.toldCounters (h : c.TellsOfBreaker c') :
    c'.toldCounters = c.toldCounters := by
  obtain ⟨ts, hts⟩ := h
  rw [toldCounters_eq hts, foldl_note_transitions]

/-! ### Submissions -/

theorem Accounts.pullReady (h : c.Accounts undecided) (hwf : c.scheduler.WellFormed)
    (now : Instant) : (c.pullReady now).Accounts undecided :=
  h.congr (statistics_pullReady c now) (tellsOfDispatches_pullReady c now).toldCounters
    (redistributes_pullReady hwf now).total (resolutions_pullReady c now)

theorem Accounts.receive (h : c.Accounts 0) (hwf : c.scheduler.WellFormed) (now : Instant) :
    (c.receive now).Accounts 1 := by
  have hc : Accounts 1 { c with statistics := c.statistics.recordSubmission } := by
    refine ⟨?_, ?_, h.rejections⟩
    · have htold := h.told
      change { c.statistics.counters with total := c.statistics.counters.total + 1 } = _
      rw [htold]
      rfl
    · have hconserved := h.conserved
      change c.statistics.counters.total + 1 = c.statistics.counters.ended + c.inHand + 1
      omega
  unfold Controller.receive
  dsimp only
  split
  · exact hc.pullReady hwf now
  · exact hc

theorem Accounts.of_sameWork (h : c.Accounts undecided) (same : c.SameWork c')
    (told : c.TellsOfBreaker c') : c'.Accounts undecided :=
  h.congr same.statistics told.toldCounters (by rw [inHand, inHand, same.scheduler])
    same.resolutions

theorem Accounts.reject (h : c.Accounts 1) {n : Nat} {q : Request} {error : AdmissionError}
    (rejection : error.isRejection = true) : (c.reject n q error).Accounts 0 where
  told := by
    rw [toldCounters_eq (history_reject error)]
    change { c.statistics.counters with rejected := c.statistics.counters.rejected + 1 } = _
    rw [h.told]
    rfl
  conserved := by
    have hconserved := h.conserved
    change c.statistics.counters.total = c.statistics.recordRejection.counters.ended + c.inHand + 0
    rw [ended_recordRejection]
    omega
  rejections := by
    change c.statistics.counters.rejected + 1 = (c.resolutions.push _).toList.countP _
    rw [Array.toList_push, List.countP_append, ← h.rejections]
    simp [Resolution.isRejection, rejection]

/-- An admission decides on a submission and takes the request in hand. -/
theorem Accounts.admitted (h : c.Accounts 1) (hs : c'.statistics = c.statistics)
    (ht : c'.toldCounters = { c.toldCounters with total := c.toldCounters.total + 1 })
    (hi : c'.inHand = c.inHand + 1) (hr : c'.resolutions = c.resolutions) : c'.Accounts 0 where
  told := by rw [hs, ht, h.told]
  conserved := by
    rw [hs, hi, h.conserved]
    omega
  rejections := by rw [hs, hr, h.rejections]

theorem Accounts.decided (h : c.Accounts 1) {n : Nat} {q : Request} (hd : Decided c n q now c') :
    c'.Accounts 0 := by
  cases hd with
  | rejected same told rejection => exact (h.of_sameWork same told).reject rejection
  | @immediate c₁ g s same told _ _ _ _ wellFormed roster _ =>
    have hc : Accounts 0 ((c₁.register n q .immediate s g).depart q ⟨q, .zero⟩ 0 now) := by
      refine (h.of_sameWork same told).admitted rfl (toldCounters_eq history_dispatched) ?_ rfl
      change s.roster.queued.total + s.roster.processing.total = _
      rw [roster, inHand, same.scheduler]
      change _ + (c.scheduler.roster.processing.increment q.tier).total = _
      rw [PerTier.total_increment]
      rfl
    exact hc.pullReady wellFormed now
  | @queued c₁ g s same told _ _ wellFormed roster _ =>
    have hc : Accounts 0 (c₁.register n q .queued s g) := by
      refine (h.of_sameWork same told).admitted rfl (toldCounters_eq history_queued) ?_ rfl
      change s.roster.queued.total + s.roster.processing.total = _
      rw [roster, inHand, same.scheduler]
      change (c.scheduler.roster.queued.increment q.tier).total + _ = _
      rw [PerTier.total_increment]
      exact Nat.add_right_comm _ _ _
    exact hc.pullReady wellFormed now

/-! ### Endings -/

private theorem inHand_deliver (c : Controller) (w : Waiter)
    (result : Except AdmissionError Completion) : (c.deliver w result).inHand = c.inHand := by
  rw [inHand, inHand, scheduler_deliver]

/-- An outcome that is no rejection changes no count. -/
theorem Accounts.deliver (h : c.Accounts undecided) (w : Waiter)
    {result : Except AdmissionError Completion}
    (hr : ∀ error, result = .error error → error.isRejection = false) :
    (c.deliver w result).Accounts undecided := by
  have hcount : (c.deliver w result).resolutions.toList.countP Resolution.isRejection =
      c.resolutions.toList.countP Resolution.isRejection := by
    have hres : Resolution.isRejection ⟨w.submission, w.id, result⟩ = false := by
      cases result with
      | ok _ => rfl
      | error error => exact hr error rfl
    unfold Controller.deliver
    dsimp only
    split
    · change (c.resolutions.push _).toList.countP _ = _
      rw [Array.toList_push, List.countP_append]
      simp [hres]
    · rfl
  have htold : (c.deliver w result).toldCounters = c.toldCounters := by
    rw [toldCounters, events_deliver]
    rfl
  refine ⟨?_, ?_, ?_⟩
  · rw [statistics_deliver, htold, h.told]
  · rw [statistics_deliver, inHand_deliver, h.conserved]
  · rw [statistics_deliver, hcount, h.rejections]

private theorem isRejection_report {call : Call} {outcome : CallOutcome} {path : DispatchPath}
    {processing : Duration} {error : AdmissionError}
    (h : report call outcome path processing = .error error) : error.isRejection = false := by
  unfold report at h
  split at h
  · cases h
  · cases h
    rfl

theorem Accounts.ended (h : c.Accounts 0) (hwf : c.scheduler.WellFormed) {call : Call}
    {outcome : CallOutcome} (hfin : Finished c call outcome now c') : c'.Accounts 0 := by
  cases hfin with
  | @intro c₁ m e s w found processing request wellFormed roster limits waiter same told =>
    obtain ⟨ts, hts⟩ := told
    rw [List.append_assoc] at hts
    have htotal := hwf.roster.total_completed found processing
    have hconserved := h.conserved
    have hc₁ : c₁.Accounts 0 := by
      refine ⟨?_, ?_, ?_⟩
      · rw [same.statistics, toldCounters_eq hts, List.foldl_append, foldl_note_transitions]
        change Statistics.countCompletion c.statistics.counters _ = _
        rw [h.told]
        rfl
      · rw [same.statistics, inHand, same.scheduler]
        change (Statistics.countCompletion c.statistics.counters _).total =
          (Statistics.countCompletion c.statistics.counters _).ended +
            (s.roster.queued.total + s.roster.processing.total) + 0
        rw [total_countCompletion, ended_countCompletion, roster]
        change c.statistics.counters.total = c.statistics.counters.ended +
          (c.scheduler.roster.queued.total + c.scheduler.roster.processing.total) + 0 at hconserved
        change _ = _ + (c.scheduler.roster.queued.total + _) + 0
        omega
      · rw [same.statistics, same.resolutions]
        exact (rejected_countCompletion _ _).trans h.rejections
    have hpull := hc₁.pullReady (same.scheduler ▸ wellFormed) now
    have hm : Accounts 0 { c₁.pullReady now with telemetry := m } := hpull.congr rfl rfl rfl rfl
    exact hm.deliver w fun error he => isRejection_report he

theorem Accounts.withdrew (h : c.Accounts 0) (hwf : c.scheduler.WellFormed) {id : RequestId}
    {b : Bool} (hw : Withdrawn c id (b, c')) : c'.Accounts 0 := by
  cases hw with
  | no => exact h
  | @yes c₁ e s w found queued wellFormed roster limits waiter same told =>
    have htotal := hwf.roster.total_withdrawn found queued
    have hconserved := h.conserved
    have hc₁ : c₁.Accounts 0 := by
      refine ⟨?_, ?_, ?_⟩
      · rw [same.statistics, toldCounters_eq told]
        change { c.statistics.counters with cancelled := c.statistics.counters.cancelled + 1 } = _
        rw [h.told]
        rfl
      · rw [same.statistics, inHand, same.scheduler]
        change c.statistics.counters.total = c.statistics.recordCancellation.counters.ended +
          (s.roster.queued.total + s.roster.processing.total) + 0
        rw [ended_recordCancellation, roster]
        change c.statistics.counters.total = c.statistics.counters.ended +
          (c.scheduler.roster.queued.total + c.scheduler.roster.processing.total) + 0 at hconserved
        change _ = _ + (_ + c.scheduler.roster.processing.total) + 0
        omega
      · rw [same.statistics, same.resolutions]
        exact h.rejections
    refine hc₁.deliver w fun error he => ?_
    cases he
    rfl

/-! ### Every operation -/

theorem Accounts.applied (h : c.Accounts 0) (hc : c.Tracked) {op : Operation}
    (ha : Applied c op c') : c'.Accounts 0 := by
  cases ha with
  | submitted decided => exact (h.receive hc.scheduler _).decided decided
  | began begins =>
    obtain ⟨d, -, -, rfl⟩ := beginAt?_eq_some begins
    exact h.congr rfl rfl rfl rfl
  | ended _ finished => exact h.ended hc.scheduler finished
  | withdrew _ withdrawn => exact h.withdrew hc.scheduler withdrawn
  | abandoned _ | drained | passed _ => exact h.congr rfl rfl rfl rfl
  | idle _ => exact h

theorem accounts_after (config : AdmissionConfig) (ops : List Operation) :
    ((new config).after ops).Accounts 0 := by
  have h : ((new config).after ops).Tracked ∧ ((new config).after ops).Accounts 0 :=
    after_induction (P := fun c => c.Tracked ∧ c.Accounts 0)
      (fun _ op h => ⟨h.1.apply op, h.2.applied h.1 (h.1.toConsistent.applied op)⟩)
      ⟨tracked_new config, accounts_new config⟩ ops
  exact h.2

/-- After any run every submission that was counted has ended in one of four ways, or is queued or
processing. The counters agree with the events and with what the callers were told: the total is the
number of submissions, of which those rejected were told so by an error that is a rejection and all
others were announced as admitted; and the other counters are the numbers of events of their
kinds. -/
theorem requests_are_conserved (config : AdmissionConfig) (ops : List Operation) :
    let c := (new config).after ops
    let k := c.statistics.counters
    let events := c.events.history.toList
    let rs := c.resolutions.toList
    k.total = k.succeeded + k.failed + k.rejected + k.cancelled +
      c.scheduler.queued.total + c.scheduler.processing.total ∧
    (∀ now, let m := c.metrics now
      m.totalRequests - (m.counters.succeeded + m.counters.failed + m.counters.rejected +
        m.counters.cancelled) = m.activeRequests) ∧
    k.total = (ops.filterMap Operation.submission?).length ∧
    k.rejected = events.countP AdmissionEvent.isRejection ∧
    (rs.map Resolution.submission).Nodup ∧
    k.rejected = rs.countP Resolution.isRejection ∧
    k.cancelled = events.countP AdmissionEvent.isCancellation ∧
    k.succeeded = events.countP (AdmissionEvent.isCompletion true) ∧
    k.failed = events.countP (AdmissionEvent.isCompletion false) ∧
    events.countP AdmissionEvent.isAdmission = k.total - k.rejected := by
  intro c k events rs
  have h : c.Accounts 0 := accounts_after config ops
  have hb := (balanced_new config).after (tracked_new config) ops
  have hk : k = events.foldl note {} := h.told
  have hfields := hk.trans (foldl_note {} events)
  have hconserved : k.total = k.ended + (c.scheduler.queued.total + c.scheduler.processing.total) :=
    h.conserved
  rw [RequestCounters.ended] at hconserved
  refine ⟨by omega, fun now => ?_, ?_, ?_, hb.settled.nodup, h.rejections, ?_, ?_, ?_, ?_⟩
  · change k.total - (k.succeeded + k.failed + k.rejected + k.cancelled) =
      c.scheduler.queued.total + c.scheduler.processing.total
    omega
  · have hlen := congrArg List.length (Ledger.map_request_after [] (new config) ops)
    rw [List.length_map] at hlen
    exact hb.total.trans hlen
  all_goals
    rw [hfields]
    simp

end Controller

end TieredAdmission

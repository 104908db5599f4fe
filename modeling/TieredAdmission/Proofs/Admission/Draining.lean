import TieredAdmission.Proofs.Admission.Delivery

/-!
# Drains

The gate counts the requests in hand, so a drain waits for them and for nothing else. From the first
drain on no submission passes the gate: each is turned away, after the queued requests have been
given the slots that are free. Nothing else depends on the gate, so the requests in hand are
dispatched, answered and withdrawn as they would be without any drain.
-/

namespace TieredAdmission

def Operation.isDrain : Operation → Bool
  | .drain _ => true
  | _ => false

namespace Controller

variable {c c' c'' : Controller} {ls : Ledger} {g : DrainGate} {now : Instant}
  {config : AdmissionConfig}

/-! ### Turning submissions away -/

/-- A submission after the first drain. -/
def turnAway (c : Controller) (request : Request) (now : Instant) : Controller :=
  (c.receive now).reject c.statistics.counters.total request .shuttingDown

/-- The controller after an operation, when every submission is turned away. -/
def applyClosed (c : Controller) : Operation → Controller
  | .submit request now => c.turnAway request now
  | op => c.apply op

def afterClosed (c : Controller) (ops : List Operation) : Controller := ops.foldl applyClosed c

private theorem submit_of_closed (h : c.gate.phase ≠ .running) (q : Request) (now : Instant) :
    c.submit q now = c.turnAway q now := by
  have hnone : (c.receive now).gate.track? = none := by
    rw [gate_receive]
    exact if_neg h
  unfold submit
  simp only [hnone]
  rfl

private theorem apply_of_closed (h : c.gate.phase ≠ .running) (op : Operation) :
    c.apply op = c.applyClosed op := by
  cases op with
  | submit q now => exact submit_of_closed h q now
  | beginCall | endCall | cancel | abandon | drain | passTime => rfl

private theorem closed_drain (c : Controller) (limit : Option Duration) :
    (c.apply (.drain limit)).gate.phase ≠ .running :=
  DrainGate.phase_drain_ne_running c.gate limit

/-- A closed gate stays closed, and the count does not rise. -/
theorem Live.closed_apply (h : c.Live config) (hc : c.gate.phase ≠ .running) (op : Operation) :
    (c.apply op).gate.phase ≠ .running ∧ (c.apply op).gate.inFlight ≤ c.gate.inFlight :=
  (h.frames (h.toConsistent.applied op)).gate.closed hc

theorem Live.closed_after (h : c.Live config) (hc : c.gate.phase ≠ .running)
    (ops : List Operation) : (c.after ops).gate.phase ≠ .running ∧
      (c.after ops).gate.inFlight ≤ c.gate.inFlight := by
  induction ops generalizing c with
  | nil => exact ⟨hc, Nat.le_refl _⟩
  | cons op ops ih =>
    obtain ⟨hphase, hcount⟩ := h.closed_apply hc op
    obtain ⟨hphase', hcount'⟩ := ih (h.apply op) hphase
    exact ⟨hphase', Nat.le_trans hcount' hcount⟩

theorem Live.after_of_closed (h : c.Live config) (hc : c.gate.phase ≠ .running)
    (ops : List Operation) : c.after ops = c.afterClosed ops := by
  induction ops generalizing c with
  | nil => rfl
  | cons op ops ih =>
    change (c.apply op).after ops = (c.applyClosed op).afterClosed ops
    rw [← apply_of_closed hc]
    exact ih (h.apply op) (h.closed_apply hc op).1

/-! ### What does not depend on the gate -/

def withGate (c : Controller) (g : DrainGate) : Controller := { c with gate := g }

section WithGate

variable (c) (g)

private theorem publishTransitions_withGate :
    (c.withGate g).publishTransitions = c.publishTransitions.withGate g := by
  have h (ts : List BreakerTransition) (c : Controller) :
      ts.foldl publishTransition (c.withGate g) = (ts.foldl publishTransition c).withGate g :=
    List.foldl_hom (withGate · g) fun _ _ => rfl
  exact h _ { c with breaker := { c.breaker with pending := [] } }

private theorem pullReady_withGate (now : Instant) :
    (c.withGate g).pullReady now = (c.pullReady now).withGate g :=
  pullReady_comm (withGate · g) c (fun _ => rfl) (fun _ => rfl) (fun _ => rfl)
    (fun _ _ _ _ => rfl) (fun _ _ => rfl) fun _ => rfl

private theorem turnAway_withGate (q : Request) (now : Instant) :
    (c.withGate g).turnAway q now = (c.turnAway q now).withGate g := by
  have hreceive : (c.withGate g).receive now = (c.receive now).withGate g := by
    have hpull := pullReady_withGate { c with statistics := c.statistics.recordSubmission } g now
    unfold receive
    dsimp only
    rw [apply_ite (withGate · g), ← hpull]
    rfl
  unfold turnAway
  rw [hreceive]
  rfl

private theorem account_withGate (call : Call) (outcome : CallOutcome) (now : Instant) :
    (c.withGate g).account call (now.since call.startedAt) outcome.result.isOk now =
      (c.account call (now.since call.startedAt) outcome.result.isOk now).withGate g := by
  have huntrack (c : Controller) (id : RequestId) :
      (c.withGate g).untrack id = (c.untrack id).withGate g := by
    have hcomplete : (c.withGate g).scheduler.complete id = c.scheduler.complete id := rfl
    unfold untrack
    rw [hcomplete]
    cases c.scheduler.complete id <;> rfl
  have hheard : (c.withGate g).heard call outcome now = (c.heard call outcome now).withGate g := rfl
  unfold account
  dsimp only
  rw [← heard, ← heard, hheard, publishTransitions_withGate, huntrack]
  rfl

private theorem deliver_withGate (w : Waiter) (result : Except AdmissionError Completion) :
    (c.withGate g).deliver w result = (c.deliver w result).withGate g.release := by
  unfold deliver
  dsimp only
  split <;> rfl

private theorem finish_withGate (call : Call) (outcome : CallOutcome) (now : Instant) :
    ∃ g', (c.withGate g).finish call outcome now = (c.finish call outcome now).withGate g' := by
  unfold finish
  dsimp only
  rw [account_withGate]
  generalize c.account call (now.since call.startedAt) outcome.result.isOk now = a
  have hdrop : (a.withGate g).dropWaiter call.request.id =
      (a.dropWaiter call.request.id).withGate g := rfl
  have hwaiter : (a.withGate g).waiter? call.request.id = a.waiter? call.request.id := rfl
  rw [hdrop, pullReady_withGate, hwaiter]
  cases a.waiter? call.request.id with
  | none => exact ⟨g, rfl⟩
  | some w =>
    exact ⟨g.release, deliver_withGate
      { (a.dropWaiter call.request.id).pullReady now with telemetry := _ } g w _⟩

private theorem cancel_withGate (id : RequestId) :
    ∃ g', (c.withGate g).cancel id = ((c.cancel id).1, (c.cancel id).2.withGate g') := by
  have hwithdraw : (c.withGate g).scheduler.withdraw id = c.scheduler.withdraw id := rfl
  -- What is done before the look-up leaves the waiters, so both sides find the same one.
  have hwaiter (w : Option Waiter) (hw : c.waiter? id = w) (c' : Controller)
      (h : c'.waiters = c.waiters) : c'.waiter? id = w :=
    (congrArg (List.find? _) h).trans hw
  unfold cancel
  rw [hwithdraw]
  cases c.scheduler.withdraw id with
  | none => exact ⟨g, rfl⟩
  | some p =>
    let left : Controller :=
      (recordQueueDepths { c with
        scheduler := p.2
        statistics := c.statistics.recordCancellation }).publish (.cancelled id p.1.tier)
    dsimp only
    cases hw : c.waiter? id with
    | none =>
      rw [hwaiter none hw, hwaiter none hw]
      · exact ⟨g, rfl⟩
      · rfl
      · rfl
    | some w =>
      rw [hwaiter (some w) hw, hwaiter (some w) hw]
      · refine ⟨g.release, Prod.ext rfl ?_⟩
        exact deliver_withGate (left.dropWaiter id) g w _
      · rfl
      · rfl

/-- Another gate makes no difference but at the gate. -/
theorem applyClosed_withGate (op : Operation) :
    ∃ g', (c.withGate g).applyClosed op = (c.applyClosed op).withGate g' := by
  cases op with
  | submit q now => exact ⟨g, turnAway_withGate c g q now⟩
  | beginCall position now =>
    refine ⟨g, ?_⟩
    have hpending : (c.withGate g).pending = c.pending := rfl
    simp only [applyClosed, Controller.apply, beginAt?, hpending]
    cases c.pending[position]? <;> rfl
  | endCall id outcome now =>
    have hrunning : (c.withGate g).running = c.running := rfl
    simp only [applyClosed, Controller.apply, finishRunning?, hrunning]
    cases c.running.find? fun call => call.request.id == id with
    | none => exact ⟨g, rfl⟩
    | some call => exact finish_withGate c g call outcome now
  | cancel id =>
    obtain ⟨g', hg'⟩ := cancel_withGate c g id
    exact ⟨g', congrArg Prod.snd hg'⟩
  | abandon id =>
    refine ⟨g, ?_⟩
    have hwaiters : (c.withGate g).waiters = c.waiters := rfl
    simp only [applyClosed, Controller.apply, abandon, hwaiters]
    cases c.waiters.any fun w => w.id == id && w.listening <;> rfl
  | drain limit => exact ⟨g.drain limit, rfl⟩
  | passTime d =>
    refine ⟨(g.pass? d).getD g, ?_⟩
    change (((g.pass? d).map (c.withGate ·)).getD (c.withGate g)) =
      (((c.gate.pass? d).map (c.withGate ·)).getD c).withGate _
    cases g.pass? d <;> cases c.gate.pass? d <;> rfl

/-- A drain makes no difference but at the gate. -/
theorem afterClosed_withGate (ops : List Operation) :
    ∃ g', (c.withGate g).afterClosed ops =
      (c.afterClosed (ops.filter fun op => !op.isDrain)).withGate g' := by
  induction ops generalizing c g with
  | nil => exact ⟨g, rfl⟩
  | cons op ops ih =>
    obtain ⟨g', hg'⟩ := applyClosed_withGate c g op
    change ∃ g', ((c.withGate g).applyClosed op).afterClosed ops = _
    rw [hg']
    cases op with
    | drain limit => exact ih c g'
    | submit | beginCall | endCall | cancel | abandon | passTime => exact ih _ g'

end WithGate

/-- After a drain the run goes on as if there were no drains and every submission were turned
away. -/
theorem Live.exists_after_drain (h : c.Live config) (limit : Option Duration)
    (ops : List Operation) : ∃ g, c.after (.drain limit :: ops) =
      (c.afterClosed (ops.filter fun op => !op.isDrain)).withGate g := by
  rw [after_cons, (h.apply _).after_of_closed (closed_drain c limit)]
  exact afterClosed_withGate c (c.gate.drain limit) ops

/-! ### No admission is announced -/

/-- No admission was published in between. -/
def AdmitsNone (c c' : Controller) : Prop :=
  ∃ es, c'.events.history.toList = c.events.history.toList ++ es ∧
    ∀ e ∈ es, e.isAdmission = false

theorem AdmitsNone.of_events (h : c'.events = c.events) : c.AdmitsNone c' := ⟨[], by simp [h]⟩

theorem AdmitsNone.trans (h : c.AdmitsNone c') (h' : c'.AdmitsNone c'') : c.AdmitsNone c'' := by
  obtain ⟨es, hes, hnone⟩ := h
  obtain ⟨fs, hfs, hnone'⟩ := h'
  refine ⟨es ++ fs, by rw [hfs, hes, List.append_assoc], fun e he => ?_⟩
  exact (List.mem_append.1 he).elim (hnone e) (hnone' e)

theorem TellsOfDispatches.admitsNone (h : c.TellsOfDispatches c') : c.AdmitsNone c' := by
  obtain ⟨es, hes, hdispatch⟩ := h
  exact ⟨es, hes, fun e he => AdmissionEvent.isAdmission_of_isDispatch (hdispatch e he)⟩

private theorem admitsNone_turnAway (c : Controller) (q : Request) (now : Instant) :
    c.AdmitsNone (c.turnAway q now) := by
  refine (tellsOfDispatches_receive c now).admitsNone.trans ?_
  exact ⟨_, history_reject _, by simp [AdmissionEvent.isAdmission]⟩

theorem Finished.admitsNone {call : Call} {outcome : CallOutcome}
    (h : Finished c call outcome now c') : c.AdmitsNone c' := by
  cases h with
  | @intro c₁ m e s w _ _ _ _ _ _ _ _ told =>
    obtain ⟨ts, hts⟩ := told
    have hfirst : c.AdmitsNone c₁ := by
      refine ⟨_, by rw [hts, List.append_assoc], fun e he => ?_⟩
      rcases List.mem_append.1 he with he | he
      · obtain ⟨t, -, rfl⟩ := List.mem_map.1 he
        rfl
      · rw [List.mem_singleton.1 he]
        rfl
    refine (hfirst.trans (tellsOfDispatches_pullReady c₁ now).admitsNone).trans ?_
    exact .of_events (events_deliver _ _ _)

theorem Withdrawn.admitsNone {id : RequestId} {b : Bool} (h : Withdrawn c id (b, c')) :
    c.AdmitsNone c' := by
  cases h with
  | no => exact .of_events rfl
  | yes _ _ _ _ _ _ _ told =>
    exact ⟨_, by rw [events_deliver, told], by simp [AdmissionEvent.isAdmission]⟩

private theorem Live.admitsNone_apply (h : c.Live config) (hc : c.gate.phase ≠ .running)
    (op : Operation) : c.AdmitsNone (c.apply op) := by
  have ha := h.toConsistent.applied op
  have hclosed := apply_of_closed hc op
  generalize c.apply op = c' at ha hclosed
  cases ha with
  | @submitted q now _ _ =>
    rw [hclosed]
    exact admitsNone_turnAway c q now
  | began begins =>
    obtain ⟨d, -, -, rfl⟩ := beginAt?_eq_some begins
    exact .of_events rfl
  | ended _ finished => exact finished.admitsNone
  | withdrew _ withdrawn => exact withdrawn.admitsNone
  | abandoned _ | drained | passed _ | idle _ => exact .of_events rfl

theorem Live.admitsNone_after (h : c.Live config) (hc : c.gate.phase ≠ .running)
    (ops : List Operation) : c.AdmitsNone (c.after ops) := by
  induction ops generalizing c with
  | nil => exact .of_events rfl
  | cons op ops ih =>
    exact (h.admitsNone_apply hc op).trans (ih (h.apply op) (h.closed_apply hc op).1)

/-! ### What is left when a drain ends -/

/-- The gate counts the requests in hand. -/
theorem Tracked.inHand (h : c.Tracked) : c.inHand = c.gate.inFlight := by
  have hqueued := h.scheduler.roster.total_queued
  have hprocessing := h.scheduler.roster.total_processing
  have hlisted := c.scheduler.roster.listed_perm.length_eq
  have hwaiters := congrArg List.length h.waiters
  rw [List.length_append, ← hqueued, ← hprocessing] at hlisted
  rw [List.length_map, List.length_map] at hwaiters
  rw [h.inFlight, hwaiters, ← hlisted]
  rfl

/-- Nothing is in hand, and every submission of the ledger has ended and its caller, unless he
stopped waiting, has the outcome. -/
structure Vacant (c : Controller) (ls : Ledger) : Prop where
  queued : c.scheduler.queued.total = 0
  processing : c.scheduler.processing.total = 0
  waiters : c.waiters = []
  calls : c.pending = [] ∧ c.running = []
  ended : ∀ s ∈ ls, s.ending.isSome = true
  resolved : ∀ s ∈ ls, s.abandoned = false → ∃ r ∈ c.resolutions.toList, r.submission = s.number

theorem Live.vacant (h : c.Live config) (hb : c.Balanced ls) (hzero : c.gate.inFlight = 0) :
    c.Vacant ls := by
  have hhand : c.inHand = 0 := by rw [h.inHand, hzero]
  obtain ⟨hentries, hwaiters, hpending, hrunning, -⟩ := h.finished_of_inHand hhand
  have hclosed : ∀ s ∈ ls, s.isOpen = false := by
    have hopen := hb.linked.entries
    rw [hentries, List.map_nil, eq_comm, List.map_eq_nil_iff, List.filter_eq_nil_iff] at hopen
    exact fun s hs => Bool.eq_false_iff.2 (hopen s hs)
  unfold Controller.inHand at hhand
  exact ⟨by omega, by omega, hwaiters, ⟨hpending, hrunning⟩,
    fun s hs => hb.ended_of_not_open hs (hclosed s hs),
    fun s hs => hb.settled.complete s hs (hclosed s hs)⟩

/-- Drains are exact. The gate counts the queued and the processing requests, and no drain waits
when there is none. From a drain on no admission is announced and every submission is turned away,
and the run goes on, but for the gate, as it does without any drain. A drain that sees the count at
zero ends when nothing is in hand, no waiter is left and every submission has ended and been
resolved, unless its caller stopped waiting, and so it stays; one that times out tells how many
requests are queued or processing when it ends. -/
theorem drain_is_exact (config : AdmissionConfig) (ops : List Operation) :
    let c := (new config).after ops
    c.gate.inFlight = c.scheduler.queued.total + c.scheduler.processing.total ∧
    (c.scheduler.queued.total + c.scheduler.processing.total = 0 → c.gate.waiting = []) ∧
    (∀ limit more,
      let c' := c.after (.drain limit :: more)
      (∃ es, c'.events.history.toList = c.events.history.toList ++ es ∧
        ∀ e ∈ es, e.isAdmission = false) ∧
      (∀ q now, c'.submit q now =
        (c'.receive now).reject c'.statistics.counters.total q .shuttingDown) ∧
      ∃ gate, c' = { c.afterClosed (more.filter fun op => !op.isDrain) with gate := gate }) ∧
    ∀ op,
      let c' := c.apply op
      ∃ results, c'.gate.finished.toList = c.gate.finished.toList ++ results ∧
        ∀ p ∈ results,
          match p.2 with
          | .timeout remaining => 0 < remaining ∧
            remaining = c'.scheduler.queued.total + c'.scheduler.processing.total
          | .drained | .complete => ∀ more,
            (c'.after more).Vacant (Ledger.after [] (new config) (ops ++ op :: more)) := by
  intro c
  have h : c.Live config := (live_new config).after ops
  refine ⟨h.inHand.symm, fun hzero => h.prompt (h.inHand.symm.trans hzero),
    fun limit more => ?_, fun op => ?_⟩
  · intro c'
    have hd : (c.apply (.drain limit)).Live config := h.apply _
    have hshut := closed_drain c limit
    refine ⟨?_, fun q now => ?_, h.exists_after_drain limit more⟩
    · have hdrain : c.AdmitsNone (c.apply (.drain limit)) := .of_events rfl
      exact hdrain.trans (hd.admitsNone_after hshut more)
    · exact submit_of_closed (hd.closed_after hshut more).1 q now
  · intro c'
    have h' : c'.Live config := h.apply op
    obtain ⟨results, hends⟩ := (h.frames (h.toConsistent.applied op)).gate.exists_ends
    refine ⟨results, hends.finished, fun p hp => ?_⟩
    have hstopped := hends.stopped (List.ne_nil_of_mem hp)
    have hfits := hends.fits p hp
    have hvacant (hzero : c'.gate.inFlight = 0) (more : List Operation) :
        (c'.after more).Vacant (Ledger.after [] (new config) (ops ++ op :: more)) := by
      have hstay := h'.closed_after (by rw [hstopped]; simp) more
      have hb := (balanced_new config).after (tracked_new config) (ops ++ op :: more)
      rw [after_append, after_cons] at hb
      exact (h'.after more).vacant hb (by omega)
    generalize p.2 = r at hfits
    cases r with
    | drained | complete => exact hvacant hfits
    | timeout remaining => exact ⟨hfits.1, hfits.2.trans h'.inHand.symm⟩

end Controller

end TieredAdmission

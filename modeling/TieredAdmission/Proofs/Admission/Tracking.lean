import TieredAdmission.Proofs.Admission.Run
import Mathlib.Data.List.Perm.Basic

/-!
# The bookkeeping of the controller

Five records are kept of the requests in hand: the scheduler's roster, the table of waiters, the
count of the drain gate, the running units of the estimator, and the backend calls themselves. They
agree after every operation. Every step of the dispatching loop keeps all but the gate in agreement,
and the gate follows at the end of an operation; so no internal error is ever met.
-/

namespace TieredAdmission

namespace Controller

/-- The records agree, the count of the gate left aside. -/
structure Consistent (c : Controller) : Prop where
  scheduler : c.scheduler.WellFormed
  waiters : c.waiters.map Waiter.id = c.scheduler.roster.entries.map Entry.id
  /-- Each processing request has one call, which is pending or running. -/
  calls : (c.pending.map Dispatch.request ++ c.running.map Call.request).Perm
    (c.scheduler.roster.processingEntries.map Entry.request)
  samples : c.estimator.openSamples = c.scheduler.processing.total
  faults : c.faults = []
  internal : ∀ r ∈ c.resolutions.toList, ∀ text, r.result ≠ .error (.internal text)

/-- All the records agree. -/
structure Tracked (c : Controller) : Prop extends Consistent c where
  inFlight : c.gate.inFlight = c.waiters.length

variable {c c' : Controller} {now : Instant} {e : Entry} {id : RequestId}

theorem tracked_new (config : AdmissionConfig) : (new config).Tracked where
  scheduler := Scheduler.wellFormed_new _
  waiters := by simp [new, Scheduler.roster_new]
  calls := by simp [new, Scheduler.roster_new, Roster.processingEntries]
  samples := by
    simp [new, Scheduler.processing, Scheduler.roster_new, Estimator.new, Estimator.openSamples,
      PerTier.const, PerTier.total]
  faults := rfl
  internal := by simp [new]
  inFlight := rfl

theorem Consistent.of_sameWork (h : c.Consistent) (hs : c.SameWork c') : c'.Consistent where
  scheduler := hs.scheduler ▸ h.scheduler
  waiters := by rw [hs.waiters, hs.scheduler, h.waiters]
  calls := by
    rw [hs.pending, hs.running, hs.scheduler]
    exact h.calls
  samples := by rw [hs.openSamples, hs.scheduler, h.samples]
  faults := hs.faults.trans h.faults
  internal := hs.resolutions ▸ h.internal

theorem Tracked.of_sameWork (h : c.Tracked) (hs : c.SameWork c') : c'.Tracked where
  toConsistent := h.toConsistent.of_sameWork hs
  inFlight := by rw [hs.gate, hs.waiters, h.inFlight]

/-! ### Waiters and calls of tracked requests -/

theorem Consistent.exists_waiter (h : c.Consistent) (hf : c.scheduler.roster.find? id = some e) :
    ∃ w, c.waiter? id = some w := by
  have hid : id ∈ c.waiters.map Waiter.id := by
    rw [h.waiters, ← Roster.find?_id hf]
    exact List.mem_map_of_mem (Roster.mem_of_find? hf)
  obtain ⟨w, hw, rfl⟩ := List.mem_map.1 hid
  exact Option.isSome_iff_exists.1 (List.find?_isSome.2 ⟨w, hw, by simp⟩)

/-- No two dispatched calls have one identifier. -/
theorem Consistent.nodup_calls (h : c.Consistent) :
    ((c.pending.map Dispatch.request ++ c.running.map Call.request).map Request.id).Nodup := by
  refine (h.calls.map Request.id).nodup_iff.2 ?_
  rw [List.map_map]
  exact h.scheduler.roster.nodup.sublist (List.filter_sublist.map _)

theorem Consistent.pending_ne_running (h : c.Consistent) {d : Dispatch} {call : Call}
    (hd : d ∈ c.pending) (hcall : call ∈ c.running) : d.request.id ≠ call.request.id := by
  have hn := h.nodup_calls
  rw [List.map_append, List.nodup_append] at hn
  exact hn.2.2 _ (List.mem_map_of_mem (List.mem_map_of_mem hd)) _
    (List.mem_map_of_mem (List.mem_map_of_mem hcall))

/-- The identifier of a pending dispatch is that of no other call. -/
theorem Consistent.id_not_mem_others (h : c.Consistent) {position : Nat} {d : Dispatch}
    (hd : c.pending[position]? = some d) :
    d.request.id ∉ ((c.pending.eraseIdx position).map Dispatch.request ++
      c.running.map Call.request).map Request.id := by
  obtain ⟨hlt, hget⟩ := List.getElem?_eq_some_iff.1 hd
  have hperm := (List.getElem_cons_eraseIdx_perm hlt).map Dispatch.request
  rw [hget, List.map_cons] at hperm
  have hn := ((hperm.append_right (c.running.map Call.request)).map Request.id).nodup_iff.2
    h.nodup_calls
  rw [List.cons_append, List.map_cons] at hn
  exact (List.nodup_cons.1 hn).1

/-- The request of a call is tracked as processing. -/
theorem Consistent.find?_of_call (h : c.Consistent) {q : Request}
    (hq : q ∈ c.pending.map Dispatch.request ++ c.running.map Call.request) :
    ∃ e, c.scheduler.roster.find? q.id = some e ∧ e.isProcessing = true ∧ e.request = q := by
  obtain ⟨e, he, rfl⟩ := List.mem_map.1 (h.calls.mem_iff.1 hq)
  obtain ⟨hmem, hp⟩ := List.mem_filter.1 he
  exact ⟨e, h.scheduler.roster.find?_id hmem, hp, rfl⟩

theorem Consistent.find?_of_running (h : c.Consistent) {call : Call} (hcall : call ∈ c.running) :
    ∃ e, c.scheduler.roster.find? call.request.id = some e ∧ e.isProcessing = true ∧
      e.request = call.request :=
  h.find?_of_call (List.mem_append_right _ (List.mem_map_of_mem hcall))

/-- The calls in hand are as many as the requests that are processing. -/
theorem Consistent.length_calls (h : c.Consistent) :
    c.pending.length + c.running.length = c.scheduler.processing.total := by
  have hlen := h.calls.length_eq
  rw [List.length_append, List.length_map, List.length_map, List.length_map] at hlen
  rw [hlen]
  exact h.scheduler.roster.total_processing.symm

/-! ### The dispatching loop -/

theorem Consistent.launch (h : c.Consistent) {next : Request} {d : Dispatch} {s : Scheduler}
    (hs : c.scheduler.start next.id now = .ok (d, s)) : (c.launch next d s now).Consistent := by
  obtain ⟨e, hf, hq, rfl, hwf, hr, -⟩ := h.scheduler.start_ok hs
  obtain ⟨w, hw⟩ := h.exists_waiter hf
  refine ⟨hwf, ?_, ?_, ?_, ?_, h.internal⟩
  · change c.waiters.map Waiter.id = s.roster.entries.map Entry.id
    rw [hr, Roster.map_id_started, h.waiters]
  · change ((c.pending ++ [_]).map Dispatch.request ++ c.running.map Call.request).Perm
      (s.roster.processingEntries.map Entry.request)
    rw [hr, List.map_append, List.append_assoc]
    refine List.Perm.trans ?_ (h.scheduler.roster.processingEntries_started hf hq).symm
    refine List.Perm.trans ?_ (h.calls.append_right _)
    rw [List.append_assoc]
    exact List.perm_append_comm.append_left _
  · change (c.estimator.recordStart now).openSamples = s.roster.processing.total
    rw [Estimator.openSamples_recordStart, hr, (h.scheduler.roster.total_started now hf hq).2,
      h.samples]
    rfl
  · change (if (c.waiter? next.id).isSome then c.faults else _) = []
    rw [hw, h.faults]
    rfl

theorem consistent_pullKeeps (now : Instant) : PullKeeps now Consistent where
  wellFormed := fun _ h => h.scheduler
  quiet := fun _ _ hs _ h => h.of_sameWork hs
  launch := fun _ _ _ _ h _ hs => h.launch hs

theorem Tracked.pullReady (h : c.Tracked) (now : Instant) : (c.pullReady now).Tracked where
  toConsistent := (consistent_pullKeeps now).pullReady h.toConsistent
  inFlight := by rw [gate_pullReady, waiters_pullReady, h.inFlight]

/-! ### Submissions -/

theorem Tracked.receive (h : c.Tracked) (now : Instant) : (c.receive now).Tracked := by
  have hc : Tracked { c with statistics := c.statistics.recordSubmission } :=
    ⟨⟨h.scheduler, h.waiters, h.calls, h.samples, h.faults, h.internal⟩, h.inFlight⟩
  unfold Controller.receive
  dsimp only
  split
  · exact hc.pullReady now
  · exact hc

theorem Tracked.reject (h : c.Tracked) {n : Nat} {q : Request} {error : AdmissionError}
    (he : error.isRejection = true) : (c.reject n q error).Tracked where
  scheduler := h.scheduler
  waiters := h.waiters
  calls := h.calls
  samples := h.samples
  faults := h.faults
  internal := by
    intro r hr text
    rcases List.mem_append.1 (Array.toList_push ▸ hr) with hr | hr
    · exact h.internal r hr text
    · rw [List.mem_singleton.1 hr]
      rintro ⟨rfl⟩
      cases he
  inFlight := h.inFlight

section Accepted

variable {n : Nat} {q : Request} {g : DrainGate} {s : Scheduler}

theorem Tracked.dispatched (h : c.Tracked) (hg : c.gate.track? = some g) (hwf : s.WellFormed)
    (hr : s.roster = c.scheduler.roster.addProcessing q now) :
    ((c.register n q .immediate s g).depart q ⟨q, .zero⟩ 0 now).Tracked := by
  refine ⟨⟨hwf, ?_, ?_, ?_, h.faults, h.internal⟩, ?_⟩
  · change (c.waiters ++ [_]).map Waiter.id = s.roster.entries.map Entry.id
    rw [hr, Roster.map_id_addProcessing, List.map_append, h.waiters]
    rfl
  · change ((c.pending ++ [_]).map Dispatch.request ++ c.running.map Call.request).Perm
      (s.roster.processingEntries.map Entry.request)
    rw [hr, Roster.processingEntries_addProcessing, List.map_append, List.map_append,
      List.append_assoc]
    refine List.Perm.trans ?_ (h.calls.append_right _)
    rw [List.append_assoc]
    exact List.perm_append_comm.append_left _
  · change (c.estimator.recordStart now).openSamples = s.roster.processing.total
    rw [Estimator.openSamples_recordStart, hr, h.samples]
    exact (PerTier.total_increment _ _).symm
  · change g.inFlight = (c.waiters ++ [_]).length
    rw [(DrainGate.track?_eq_some_iff.1 hg).2, List.length_append, ← h.inFlight]
    rfl

theorem Tracked.queued (h : c.Tracked) (hg : c.gate.track? = some g) (hwf : s.WellFormed)
    (hr : s.roster = c.scheduler.roster.addQueued q now) :
    (c.register n q .queued s g).Tracked := by
  refine ⟨⟨hwf, ?_, ?_, ?_, h.faults, h.internal⟩, ?_⟩
  · change (c.waiters ++ [_]).map Waiter.id = s.roster.entries.map Entry.id
    rw [hr, Roster.map_id_addQueued, List.map_append, h.waiters]
    rfl
  · change (c.pending.map Dispatch.request ++ c.running.map Call.request).Perm
      (s.roster.processingEntries.map Entry.request)
    rw [hr, Roster.processingEntries_addQueued]
    exact h.calls
  · change c.estimator.openSamples = s.roster.processing.total
    rw [hr, h.samples]
    rfl
  · change g.inFlight = (c.waiters ++ [_]).length
    rw [(DrainGate.track?_eq_some_iff.1 hg).2, List.length_append, ← h.inFlight]
    rfl

end Accepted

/-! ### The end of a call -/

/-- The controller without the call that ended, its request and its waiter. -/
def without (c : Controller) (call : Call) (outcome : CallOutcome) (now : Instant) (s : Scheduler) :
    Controller :=
  let processing := now.since call.startedAt
  let success := outcome.result.isOk
  { c with
    scheduler := s
    estimator := c.estimator.recordComplete now processing (!success)
    statistics :=
      c.statistics.recordCompletion now call.request.tier call.waited processing success
    waiters := c.waiters.filter fun w => w.id != call.request.id
    running := c.running.filter fun r => r.request.id != call.request.id }

/-- What the end of a running call does: the call, its request and its waiter leave, queued requests
are dispatched, and the waiter gets its outcome. -/
inductive Finished (c : Controller) (call : Call) (outcome : CallOutcome) (now : Instant) :
    Controller → Prop where
  | intro {c' : Controller} {m : Telemetry} {e : Entry} {s : Scheduler} {w : Waiter}
      (found : c.scheduler.roster.find? call.request.id = some e)
      (processing : e.isProcessing = true) (request : e.request = call.request)
      (wellFormed : s.WellFormed) (roster : s.roster = c.scheduler.roster.completed e)
      (limits : s.limits? = c.scheduler.limits?) (waiter : c.waiter? call.request.id = some w)
      (same : (c.without call outcome now s).SameWork c')
      (told : ∃ ts : List BreakerTransition, c'.events.history.toList =
        c.events.history.toList ++ (ts.map fun t => .breakerTransition t.source t.target) ++
          [.completed call.request.id call.request.tier outcome.result.isOk
            (now.since call.startedAt).millisWord]) :
      Finished c call outcome now
        (Controller.deliver { c'.pullReady now with telemetry := m } w
          (report call outcome w.path (now.since call.startedAt)))

/-- The controller that knows how a running call ended, before the breaker's changes are told. -/
def heard (c : Controller) (call : Call) (outcome : CallOutcome) (now : Instant) : Controller :=
  { c with
    running := c.running.filter fun r => r.request.id != call.request.id
    estimator := c.estimator.recordComplete now (now.since call.startedAt) (!outcome.result.isOk)
    breaker := if outcome.result.isOk then c.breaker.recordSuccess
      else c.breaker.recordFailure call.request.tier now }

/-- What accounting for a call comes to when its request is tracked as processing. -/
theorem account_eq {call : Call} {e : Entry} {s : Scheduler}
    (hs : c.scheduler.complete call.request.id = .ok (e, s)) (outcome : CallOutcome)
    (now : Instant) :
    c.account call (now.since call.startedAt) outcome.result.isOk now =
      Controller.publish
        { (c.heard call outcome now).publishTransitions with
          scheduler := s
          statistics := c.statistics.recordCompletion now call.request.tier call.waited
            (now.since call.startedAt) outcome.result.isOk }
        (.completed call.request.id call.request.tier outcome.result.isOk
          (now.since call.startedAt).millisWord) := by
  have same := sameWork_publishTransitions (c.heard call outcome now)
  have hs' : (c.heard call outcome now).publishTransitions.scheduler.complete call.request.id =
      .ok (e, s) := by
    rw [same.scheduler]
    exact hs
  have huntrack : (c.heard call outcome now).publishTransitions.untrack call.request.id =
      { (c.heard call outcome now).publishTransitions with scheduler := s } := by
    rw [untrack, hs']
  have hstats : (c.heard call outcome now).publishTransitions.statistics = c.statistics :=
    same.statistics
  rw [← hstats]
  unfold account
  dsimp only
  rw [← heard, huntrack]

theorem Consistent.finished (h : c.Consistent) {call : Call} (hcall : call ∈ c.running)
    (outcome : CallOutcome) (now : Instant) :
    Finished c call outcome now (c.finish call outcome now) := by
  obtain ⟨e, hf, hp, hreq⟩ := h.find?_of_running hcall
  obtain ⟨w, hw⟩ := h.exists_waiter hf
  obtain ⟨s, hs⟩ := Scheduler.exists_complete hf hp
  obtain ⟨-, -, hwf, hroster, hlimits⟩ := h.scheduler.complete_ok hs
  have same := sameWork_publishTransitions (c.heard call outcome now)
  obtain ⟨ts, hts⟩ := tellsOfBreaker_publishTransitions (c.heard call outcome now)
  unfold finish
  dsimp only
  rw [account_eq hs]
  have hwaiter : (c.heard call outcome now).publishTransitions.waiters.find?
      (fun w => w.id == call.request.id) = some w := by
    rw [same.waiters]
    exact hw
  rw [waiter?, publish, hwaiter]
  refine .intro hf hp hreq hwf hroster hlimits hw ?_ ⟨ts, ?_⟩
  · refine ⟨rfl, same.samples, same.outcomes, same.config, rfl, same.gate, ?_, same.pending,
      same.running, same.begun, same.resolutions, same.faults⟩
    change (c.heard call outcome now).publishTransitions.waiters.filter _ = _
    rw [same.waiters]
    rfl
  · change ((c.heard call outcome now).publishTransitions.events.history.push _).toList = _
    rw [Array.toList_push, hts]
    rfl

/-- Exactly one waiter has the identifier of a tracked request. -/
theorem Consistent.length_filter_waiters (h : c.Consistent) {w : Waiter}
    (hw : c.waiter? id = some w) :
    (c.waiters.filter fun w => w.id != id).length + 1 = c.waiters.length := by
  have hmem : id ∈ c.waiters.map Waiter.id := by
    refine List.mem_map.2 ⟨w, List.mem_of_find?_eq_some hw, ?_⟩
    simpa using List.find?_some hw
  have hnodup : (c.waiters.map Waiter.id).Nodup := h.waiters ▸ h.scheduler.roster.nodup
  have hlen := List.length_erase_add_one hmem
  rw [hnodup.erase_eq_filter, List.filter_map, List.length_map, List.length_map] at hlen
  exact hlen

/-- The other calls keep their requests in hand. -/
theorem Consistent.calls_filter (h : c.Consistent) {call : Call} (hcall : call ∈ c.running) :
    (c.pending.map Dispatch.request ++
      (c.running.filter fun r => r.request.id != call.request.id).map Call.request).Perm
    ((Roster.erase call.request.id c.scheduler.roster.processingEntries).map Entry.request) := by
  have hpending : (c.pending.map Dispatch.request).filter (fun q => q.id != call.request.id) =
      c.pending.map Dispatch.request := by
    refine List.filter_eq_self.2 fun q hq => ?_
    obtain ⟨d, hd, rfl⟩ := List.mem_map.1 hq
    simpa using h.pending_ne_running hd hcall
  have hperm := h.calls.filter fun q => q.id != call.request.id
  rw [List.filter_append, hpending, List.filter_map, List.filter_map] at hperm
  exact hperm

theorem Consistent.without (h : c.Consistent) {call : Call} (hcall : call ∈ c.running)
    {outcome : CallOutcome} {s : Scheduler}
    (hf : c.scheduler.roster.find? call.request.id = some e) (hp : e.isProcessing = true)
    (hwf : s.WellFormed) (hr : s.roster = c.scheduler.roster.completed e) :
    (c.without call outcome now s).Consistent := by
  have hid := Roster.find?_id hf
  refine ⟨hwf, ?_, ?_, ?_, h.faults, h.internal⟩
  · change (c.waiters.filter _).map Waiter.id = s.roster.entries.map Entry.id
    rw [hr, Roster.map_id_completed, ← h.waiters, hid, List.filter_map]
    rfl
  · change (c.pending.map Dispatch.request ++ (c.running.filter _).map Call.request).Perm
      (s.roster.processingEntries.map Entry.request)
    rw [hr, Roster.processingEntries_completed, hid]
    exact h.calls_filter hcall
  · change (c.estimator.recordComplete now _ _).openSamples = s.roster.processing.total
    have hdec := h.scheduler.roster.total_completed hf hp
    have hopen : c.estimator.openSamples = c.scheduler.roster.processing.total := h.samples
    rw [Estimator.openSamples_recordComplete, hr]
    omega

/-- An outcome lets go of the gate. -/
theorem Consistent.deliver (h : c.Consistent) {w : Waiter}
    {result : Except AdmissionError Completion} (hw : c.gate.inFlight = c.waiters.length + 1)
    (hresult : ∀ text, result ≠ .error (.internal text)) : (c.deliver w result).Tracked := by
  have hin : c.gate.release.inFlight = c.waiters.length := by
    rw [DrainGate.inFlight_release, hw, Nat.add_sub_cancel]
  unfold Controller.deliver
  dsimp only
  split
  · refine ⟨⟨h.scheduler, h.waiters, h.calls, h.samples, h.faults, ?_⟩, hin⟩
    intro r hr text
    rcases List.mem_append.1 (Array.toList_push ▸ hr) with hr | hr
    · exact h.internal r hr text
    · rw [List.mem_singleton.1 hr]
      exact hresult text
  · exact ⟨⟨h.scheduler, h.waiters, h.calls, h.samples, h.faults, h.internal⟩, hin⟩

private theorem report_ne_internal (call : Call) (outcome : CallOutcome) (path : DispatchPath)
    (processing : Duration) (text : String) :
    report call outcome path processing ≠ .error (.internal text) := by
  unfold report
  split <;> simp

/-! ### The other operations -/

/-- What the cancellation of a request does: nothing, or a queued request leaves with its waiter,
who is told. -/
inductive Withdrawn (c : Controller) (id : RequestId) : Bool × Controller → Prop where
  | no : Withdrawn c id (false, c)
  | yes {c' : Controller} {e : Entry} {s : Scheduler} {w : Waiter}
      (found : c.scheduler.roster.find? id = some e) (queued : e.stage = .queued)
      (wellFormed : s.WellFormed) (roster : s.roster = c.scheduler.roster.withdrawn e)
      (limits : s.limits? = c.scheduler.limits?) (waiter : c.waiter? id = some w)
      (same : SameWork
        { c with
          scheduler := s
          statistics := c.statistics.recordCancellation
          waiters := c.waiters.filter fun w => w.id != id } c')
      (told : c'.events.history.toList =
        c.events.history.toList ++ [.cancelled id e.request.tier]) :
      Withdrawn c id (true, c'.deliver w (.error (.cancelled id)))

theorem Consistent.withdrawn (h : c.Consistent) (id : RequestId) :
    Withdrawn c id (c.cancel id) := by
  unfold cancel
  split
  · exact .no
  · next q s hs =>
    obtain ⟨e, hf, hq, rfl, hwf, hroster, hlimits⟩ := h.scheduler.withdraw_some hs
    obtain ⟨w, hw⟩ := h.exists_waiter hf
    dsimp only
    split
    · next hnone =>
      have : c.waiter? id = none := hnone
      rw [hw] at this
      cases this
    · next w' hw' =>
      obtain rfl : w = w' := Option.some.inj (hw.symm.trans hw')
      refine .yes hf hq hwf hroster hlimits hw ?_ Array.toList_push
      exact ⟨rfl, rfl, rfl, rfl, rfl, rfl, rfl, rfl, rfl, rfl, rfl, rfl⟩

theorem Tracked.beginAt? (h : c.Tracked) {position : Nat} {call : Call}
    (hb : c.beginAt? position now = some (call, c')) : c'.Tracked := by
  obtain ⟨d, hd, rfl, rfl⟩ := beginAt?_eq_some hb
  refine ⟨⟨h.scheduler, h.waiters, ?_, h.samples, h.faults, h.internal⟩, h.inFlight⟩
  obtain ⟨hlt, hd⟩ := List.getElem?_eq_some_iff.1 hd
  have hperm := (List.getElem_cons_eraseIdx_perm hlt).map Dispatch.request
  rw [hd, List.map_cons] at hperm
  refine List.Perm.trans ?_ ((hperm.append_right _).trans h.calls)
  rw [List.map_append, ← List.append_assoc]
  exact List.perm_append_singleton _ _

/-! ### What an operation does -/

/-- An operation is decided on, begins or ends a call, withdraws a request, or acts on the waiters
or the gate alone; one that cannot be done changes nothing. -/
inductive Applied (c : Controller) : Operation → Controller → Prop where
  | submitted {q : Request} {now : Instant} {c' : Controller}
      (decided : Decided (c.receive now) c.statistics.counters.total q now c') :
      Applied c (.submit q now) c'
  | began {position : Nat} {now : Instant} {call : Call} {c' : Controller}
      (begins : c.beginAt? position now = some (call, c')) :
      Applied c (.beginCall position now) c'
  | ended {id : RequestId} {outcome : CallOutcome} {now : Instant} {call : Call} {c' : Controller}
      (running : c.running.find? (fun r => r.request.id == id) = some call)
      (finished : Finished c call outcome now c') : Applied c (.endCall id outcome now) c'
  | withdrew {id : RequestId} {c' : Controller} (does : c.does (.cancel id) = true)
      (withdrawn : Withdrawn c id (true, c')) : Applied c (.cancel id) c'
  | abandoned {id : RequestId} (waits : c.waiters.any (fun w => w.id == id && w.listening) = true) :
      Applied c (.abandon id)
        { c with
          waiters :=
            c.waiters.map fun w => if w.id == id then { w with listening := false } else w }
  | drained {limit : Option Duration} :
      Applied c (.drain limit) { c with gate := c.gate.drain limit }
  | passed {d : Duration} {g : DrainGate} (passes : c.gate.pass? d = some g) :
      Applied c (.passTime d) { c with gate := g }
  | idle {op : Operation} (cannot : c.does op = false) : Applied c op c

theorem apply_of_cannot {op : Operation} (h : c.does op = false) : c.apply op = c := by
  cases op with
  | submit q now => cases h
  | beginCall position now =>
    have hd : c.pending[position]? = none := by simpa [does] using h
    simp [Controller.apply, beginAt?, hd]
  | endCall id outcome now =>
    have hr : (c.running.find? fun call => call.request.id == id) = none := by
      simpa [does] using h
    simp [Controller.apply, finishRunning?, hr]
  | cancel id =>
    simp only [does, Controller.apply, Controller.cancel] at h ⊢
    split at h
    · rfl
    · split at h <;> cases h
  | abandon id =>
    simp only [does, Controller.apply, Controller.abandon] at h ⊢
    split at h
    · cases h
    · next hw => rw [if_neg hw]
  | drain limit => cases h
  | passTime d =>
    have hp : c.passTime? d = none := by simpa [does] using h
    simp [Controller.apply, hp]

theorem Consistent.applied (h : c.Consistent) (op : Operation) : Applied c op (c.apply op) := by
  cases hdoes : c.does op with
  | false =>
    rw [apply_of_cannot hdoes]
    exact .idle hdoes
  | true =>
    cases op with
    | submit q now =>
      refine .submitted (decided_submit ?_)
      have hc : Consistent { c with statistics := c.statistics.recordSubmission } :=
        ⟨h.scheduler, h.waiters, h.calls, h.samples, h.faults, h.internal⟩
      exact ((consistent_pullKeeps now).receive hc).scheduler
    | beginCall position now =>
      obtain ⟨p, hb⟩ : ∃ p, c.beginAt? position now = some p := by
        have hlt : position < c.pending.length := by simpa [does] using hdoes
        simp [beginAt?, hlt]
      have hc : c.apply (.beginCall position now) = p.2 := by simp [Controller.apply, hb]
      rw [hc]
      exact .began hb
    | endCall id outcome now =>
      obtain ⟨call, hr⟩ := Option.isSome_iff_exists.1 (List.find?_isSome.2 (List.any_eq_true.1 hdoes))
      have hc : c.apply (.endCall id outcome now) = c.finish call outcome now := by
        simp [Controller.apply, finishRunning?, hr]
      rw [hc]
      exact .ended hr (h.finished (List.mem_of_find?_eq_some hr) outcome now)
    | cancel id =>
      have hwithdrawn := h.withdrawn id
      have hp : c.cancel id = (true, (c.cancel id).2) := Prod.ext hdoes rfl
      rw [hp] at hwithdrawn
      exact .withdrew hdoes hwithdrawn
    | abandon id =>
      have hw : c.waiters.any (fun w => w.id == id && w.listening) = true := by
        by_contra hw
        simp [does, abandon, hw] at hdoes
      change Applied c (.abandon id) (c.abandon id).2
      rw [abandon, if_pos hw]
      exact .abandoned hw
    | drain limit => exact .drained
    | passTime d =>
      obtain ⟨g, hg⟩ : ∃ g, c.gate.pass? d = some g := by
        simpa [does, passTime?, Option.isSome_iff_exists] using hdoes
      have hc : c.apply (.passTime d) = { c with gate := g } := by
        simp [Controller.apply, passTime?, hg]
      rw [hc]
      exact .passed hg

/-! ### Every operation keeps the records in agreement -/

theorem Tracked.decided (h : c.Tracked) {n : Nat} {q : Request} (hd : Decided c n q now c') :
    c'.Tracked := by
  cases hd with
  | rejected same _ rejection => exact (h.of_sameWork same).reject rejection
  | immediate same _ gate _ _ _ wellFormed roster _ =>
    rw [← same.gate] at gate
    rw [← same.scheduler] at roster
    exact ((h.of_sameWork same).dispatched gate wellFormed roster).pullReady now
  | queued same _ gate _ wellFormed roster _ =>
    rw [← same.gate] at gate
    rw [← same.scheduler] at roster
    exact ((h.of_sameWork same).queued gate wellFormed roster).pullReady now

theorem Tracked.ended (h : c.Tracked) {call : Call} {outcome : CallOutcome}
    (hcall : call ∈ c.running) (hfin : Finished c call outcome now c') : c'.Tracked := by
  cases hfin with
  | @intro c₁ m e s w found processing request wellFormed roster limits waiter same told =>
    have h₁ : c₁.Consistent := (h.without hcall found processing wellFormed roster).of_sameWork same
    have h₂ := (consistent_pullKeeps now).pullReady h₁
    have h₃ : Consistent { c₁.pullReady now with telemetry := m } :=
      ⟨h₂.scheduler, h₂.waiters, h₂.calls, h₂.samples, h₂.faults, h₂.internal⟩
    refine h₃.deliver ?_ (report_ne_internal _ _ _ _)
    change (c₁.pullReady now).gate.inFlight = (c₁.pullReady now).waiters.length + 1
    rw [gate_pullReady, waiters_pullReady, same.gate, same.waiters]
    exact h.inFlight.trans (h.length_filter_waiters waiter).symm

theorem Tracked.withdrew (h : c.Tracked) {b : Bool} (hw : Withdrawn c id (b, c')) :
    c'.Tracked := by
  cases hw with
  | no => exact h
  | @yes c₁ e s w found queued wellFormed roster limits waiter same told =>
    have hid := Roster.find?_id found
    have h₁ : Consistent
        { c with
          scheduler := s
          statistics := c.statistics.recordCancellation
          waiters := c.waiters.filter fun w => w.id != id } := by
      refine ⟨wellFormed, ?_, ?_, ?_, h.faults, h.internal⟩
      · change (c.waiters.filter _).map Waiter.id = s.roster.entries.map Entry.id
        rw [roster, Roster.map_id_withdrawn, ← h.waiters, hid, List.filter_map]
        rfl
      · change (c.pending.map Dispatch.request ++ c.running.map Call.request).Perm
          (s.roster.processingEntries.map Entry.request)
        rw [roster, h.scheduler.roster.processingEntries_withdrawn found queued]
        exact h.calls
      · change c.estimator.openSamples = s.roster.processing.total
        rw [roster]
        exact h.samples
    refine (h₁.of_sameWork same).deliver ?_ (by simp)
    rw [same.gate, same.waiters]
    exact h.inFlight.trans (h.length_filter_waiters waiter).symm

theorem Tracked.abandoned (h : c.Tracked) (id : RequestId) :
    Tracked
      { c with
        waiters :=
          c.waiters.map fun w => if w.id == id then { w with listening := false } else w } := by
  refine ⟨⟨h.scheduler, ?_, h.calls, h.samples, h.faults, h.internal⟩, ?_⟩
  · refine Eq.trans ?_ h.waiters
    rw [List.map_map]
    refine List.map_congr_left fun w _ => ?_
    simp only [Function.comp_apply]
    split <;> rfl
  · rw [List.length_map]
    exact h.inFlight

theorem Tracked.applied (h : c.Tracked) {op : Operation} (ha : Applied c op c') : c'.Tracked := by
  cases ha with
  | submitted decided => exact (h.receive _).decided decided
  | began begins => exact h.beginAt? begins
  | ended running finished => exact h.ended (List.mem_of_find?_eq_some running) finished
  | withdrew _ withdrawn => exact h.withdrew withdrawn
  | abandoned _ => exact h.abandoned _
  | drained =>
    exact ⟨⟨h.scheduler, h.waiters, h.calls, h.samples, h.faults, h.internal⟩,
      (DrainGate.inFlight_drain _ _).trans h.inFlight⟩
  | passed passes =>
    exact ⟨⟨h.scheduler, h.waiters, h.calls, h.samples, h.faults, h.internal⟩,
      (DrainGate.inFlight_pass? passes).trans h.inFlight⟩
  | idle _ => exact h

theorem Tracked.apply (h : c.Tracked) (op : Operation) : (c.apply op).Tracked :=
  h.applied (h.toConsistent.applied op)

theorem tracked_after (config : AdmissionConfig) (ops : List Operation) :
    ((new config).after ops).Tracked :=
  after_induction (fun _ op h => h.apply op) (tracked_new config) ops

/-! ### What agreement means for the observer -/

/-- The bookkeeping after any run. The table has one waiter for each tracked request and none else,
the gate counts the waiters, the processing requests are those of the calls that have not ended, one
call each, and the estimator counts them too. Hence no internal error is ever met: a selected
request can be started and has a waiter, the request of a call that ends is tracked and has a
caller, a request that passed the duplicate check is accepted by the scheduler, and nobody is told
of an internal error. -/
theorem bookkeeping_agrees (config : AdmissionConfig) (ops : List Operation) :
    let c := (new config).after ops
    (∀ id, (c.waiters.countP fun w => w.id == id) = if c.scheduler.contains id then 1 else 0) ∧
    c.gate.inFlight = c.waiters.length ∧
    (c.pending.map Dispatch.request ++ c.running.map Call.request).Perm
      (c.scheduler.roster.processingEntries.map Entry.request) ∧
    ((c.pending.map Dispatch.request ++ c.running.map Call.request).map Request.id).Nodup ∧
    c.estimator.openSamples = c.scheduler.processing.total ∧
    c.faults = [] ∧
    (∀ now q, c.scheduler.selectNext (c.budget now) now = some q →
      ∃ d s w, c.scheduler.start q.id now = .ok (d, s) ∧ d.request = q ∧
        c.waiter? q.id = some w) ∧
    (∀ call ∈ c.running, ∃ e s w, c.scheduler.complete call.request.id = .ok (e, s) ∧
      e.request = call.request ∧ c.waiter? call.request.id = some w) ∧
    (∀ q now, (c.receive now).scheduler.contains q.id = false →
      (∃ d s, (c.receive now).scheduler.beginProcessing q now = (.ok d, s)) ∧
      ∃ s, (c.receive now).scheduler.enqueue q now = (.ok (), s)) ∧
    ∀ r ∈ c.resolutions.toList, ∀ text, r.result ≠ .error (.internal text) := by
  intro c
  have h : c.Tracked := tracked_after config ops
  refine ⟨fun id => ?_, h.inFlight, h.calls, h.nodup_calls, h.samples, h.faults, ?_, ?_, ?_,
    h.internal⟩
  · have hcount : (c.waiters.countP fun w => w.id == id) = (c.waiters.map Waiter.id).count id := by
      rw [List.count, List.countP_map]
      rfl
    have hnodup := h.scheduler.roster.nodup
    rw [hcount, h.waiters, hnodup.count]
    simp only [Scheduler.contains, Roster.contains_iff]
  · intro now q hq
    obtain ⟨-, -, e, hf, hqueued, rfl⟩ := h.scheduler.selectNext_some hq
    obtain ⟨s, hs⟩ := Scheduler.exists_start now hf hqueued
    obtain ⟨w, hw⟩ := h.exists_waiter hf
    exact ⟨_, s, w, hs, rfl, hw⟩
  · intro call hcall
    obtain ⟨e, hf, hp, hreq⟩ := h.find?_of_running hcall
    obtain ⟨s, hs⟩ := Scheduler.exists_complete hf hp
    obtain ⟨w, hw⟩ := h.exists_waiter hf
    exact ⟨e, s, w, hs, hreq, hw⟩
  · intro q now hnew
    have hr := (h.receive now).scheduler
    obtain ⟨s, hs, -⟩ := hr.beginProcessing now hnew
    obtain ⟨s', hs', -⟩ := hr.enqueue now hnew
    exact ⟨⟨_, s, hs⟩, s', hs'⟩

end Controller

end TieredAdmission

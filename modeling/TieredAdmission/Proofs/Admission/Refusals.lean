import TieredAdmission.Proofs.Admission.BreakerGate
import TieredAdmission.Proofs.Admission.Delivery

/-!
# What failed operations leave behind

A submission that is rejected has given queued requests the slots that are free, is counted, told to
the observers and answered, and may have made the breaker probe. Nothing else of it is left,
whatever the reason was. A cancellation that fails leaves nothing.
-/

namespace TieredAdmission

def Entry.launched (ds : List Dispatch) (now : Instant) (e : Entry) : Entry :=
  if e.id ∈ ds.map fun d => d.request.id then { e with stage := .processing now } else e

private theorem Entry.id_launched (ds : List Dispatch) (now : Instant) (e : Entry) :
    (e.launched ds now).id = e.id := by
  unfold launched
  split <;> rfl

private theorem Entry.launched_append (ds : List Dispatch) (d : Dispatch) (now : Instant)
    (e : Entry) : e.launched (ds ++ [d]) now =
      if (e.launched ds now).id == d.request.id then
        { e.launched ds now with stage := .processing now }
      else e.launched ds now := by
  have hmem : (e.id ∈ (ds ++ [d]).map fun d => d.request.id) ↔
      (e.id ∈ ds.map fun d => d.request.id) ∨ e.id = d.request.id := by
    rw [List.map_append, List.mem_append, List.map_singleton, List.mem_singleton]
  rw [Entry.id_launched]
  unfold launched
  by_cases hds : e.id ∈ ds.map fun d => d.request.id
  · rw [if_pos (hmem.2 (Or.inl hds)), if_pos hds]
    split <;> rfl
  · by_cases hd : e.id = d.request.id
    · rw [if_pos (hmem.2 (Or.inr hd)), if_neg hds, if_pos (by simpa using hd)]
    · rw [if_neg fun h => (hmem.1 h).elim hds hd, if_neg hds, if_neg (by simpa using hd)]

def Dispatch.event (d : Dispatch) : AdmissionEvent :=
  .dispatched d.request.id d.request.tier d.waited.millisWord

/-- The estimators have the same histories; the level last made known may differ. -/
structure Estimator.SameHistory (e e' : Estimator) : Prop where
  config : e'.config = e.config
  samples : e'.samples = e.samples
  outcomes : e'.outcomes = e.outcomes

/-- Being asked leaves a breaker as it is, or makes an open one probe; the events tell of that. -/
inductive CircuitBreaker.Asked (b : CircuitBreaker) (now : Instant) :
    CircuitBreaker → List AdmissionEvent → Prop where
  | stays : Asked b now b []
  | probes (opened : b.state = .opened) (passed : b.timeoutPassed now = true) :
      Asked b now { b with state := .halfOpen, successCount := 0 }
        [.breakerTransition .opened .halfOpen]

theorem Estimator.SameHistory.recordStart {e e' : Estimator} (h : e.SameHistory e')
    (now : Instant) : (e.recordStart now).SameHistory (e'.recordStart now) := by
  obtain ⟨config, samples, outcomes, _, _⟩ := e
  obtain ⟨config', samples', outcomes', _, _⟩ := e'
  obtain ⟨rfl, rfl, rfl⟩ := h
  exact ⟨rfl, rfl, rfl⟩

/-- An asked breaker has no change left to tell. -/
theorem CircuitBreaker.asked_probe {b : CircuitBreaker} (h : b.pending = []) (now : Instant) :
    b.Asked now { b.probe now with pending := [] }
      ((b.probe now).pending.map fun t => .breakerTransition t.source t.target) := by
  obtain ⟨config, state, failures, successCount, lastFailure, pending⟩ := b
  obtain rfl : pending = [] := h
  unfold probe
  split
  · next hprobe =>
    obtain ⟨rfl, hpassed⟩ := hprobe
    exact .probes rfl hpassed
  · exact .stays

namespace Controller

variable {c c' : Controller} {q : Request} {now : Instant} {config : AdmissionConfig}

/-! ### The dispatches before a newcomer is considered -/

/-- The controller when the queued requests that fit have been dispatched. -/
def pulled (c : Controller) (now : Instant) : Controller :=
  if 0 < c.scheduler.queued.total then c.pullReady now else c

/-- The loop has launched queued requests, and has done nothing else. -/
structure Launched (c : Controller) (now : Instant) (ds : List Dispatch) (c' : Controller) :
    Prop where
  fromQueue : ∀ d ∈ ds, ∃ e ∈ c.scheduler.roster.queuedEntries,
    d = ⟨e.request, now.since e.enqueuedAt⟩
  once : (ds.map fun d => d.request.id).Nodup
  entries : c'.scheduler.roster.entries = c.scheduler.roster.entries.map (Entry.launched ds now)
  nextSequence : c'.scheduler.roster.nextSequence = c.scheduler.roster.nextSequence
  estimator : (ds.foldl (fun e _ => e.recordStart now) c.estimator).SameHistory c'.estimator
  pending : c'.pending = c.pending ++ ds
  events : c'.events = ds.foldl (fun b d => b.publish d.event) c.events
  statistics : c'.statistics = c.statistics
  gate : c'.gate = c.gate
  waiters : c'.waiters = c.waiters
  running : c'.running = c.running
  begun : c'.begun = c.begun
  resolutions : c'.resolutions = c.resolutions
  faults : c'.faults = c.faults

private theorem launched_self (c : Controller) (now : Instant) : c.Launched now [] c where
  fromQueue := by simp
  once := .nil
  entries := by
    have hself : Entry.launched [] now = fun e => e := by
      funext e
      simp [Entry.launched]
    rw [hself, List.map_id']
  nextSequence := rfl
  estimator := ⟨rfl, rfl, rfl⟩
  pending := (List.append_nil _).symm
  events := rfl
  statistics := rfl
  gate := rfl
  waiters := rfl
  running := rfl
  begun := rfl
  resolutions := rfl
  faults := rfl

theorem Launched.of_sameWork {ds : List Dispatch} (h : c.Launched now ds c')
    {c'' : Controller} (same : c'.SameWork c'') (he : c''.events = c'.events) :
    c.Launched now ds c'' where
  fromQueue := h.fromQueue
  once := h.once
  entries := by rw [same.scheduler, h.entries]
  nextSequence := by rw [same.scheduler, h.nextSequence]
  estimator := ⟨same.config.trans h.estimator.config, same.samples.trans h.estimator.samples,
    same.outcomes.trans h.estimator.outcomes⟩
  pending := same.pending.trans h.pending
  events := he.trans h.events
  statistics := same.statistics.trans h.statistics
  gate := same.gate.trans h.gate
  waiters := same.waiters.trans h.waiters
  running := same.running.trans h.running
  begun := same.begun.trans h.begun
  resolutions := same.resolutions.trans h.resolutions
  faults := same.faults.trans h.faults

theorem Launched.launch {ds : List Dispatch} (h : c.Launched now ds c') (hc : c'.Consistent)
    {next : Request} {d : Dispatch} {s : Scheduler}
    (hnext : c'.scheduler.selectNext (c'.budget now) now = some next)
    (hs : c'.scheduler.start next.id now = .ok (d, s)) :
    c.Launched now (ds ++ [d]) (c'.launch next d s now) := by
  obtain ⟨-, -, e, hf, hq, rfl⟩ := hc.scheduler.selectNext_some hnext
  obtain ⟨e', hf', -, rfl, -, hr, -⟩ := hc.scheduler.start_ok hs
  obtain rfl : e = e' := Option.some.inj (hf.symm.trans hf')
  obtain ⟨w, hw⟩ := hc.exists_waiter hf
  have hmem := Roster.mem_of_find? hf
  rw [h.entries] at hmem
  -- The entry is queued, so none of the dispatches before is its own.
  obtain ⟨k, hk, hke⟩ := List.mem_map.1 hmem
  have hnew : k.id ∉ ds.map fun d => d.request.id := by
    intro hlaunched
    rw [← hke, Entry.launched, if_pos hlaunched] at hq
    cases hq
  obtain rfl : k = e := by rw [← hke, Entry.launched, if_neg hnew]
  refine ⟨?_, ?_, ?_, ?_, ?_, ?_, ?_, h.statistics, h.gate, h.waiters, h.running, h.begun,
    h.resolutions, ?_⟩
  · intro d hd
    rcases List.mem_append.1 hd with hd | hd
    · exact h.fromQueue d hd
    · exact ⟨k, Roster.mem_queuedEntries.2 ⟨hk, hq⟩, List.mem_singleton.1 hd⟩
  · rw [List.map_append, List.nodup_append]
    refine ⟨h.once, by simp, fun i hi j hj hij => hnew ?_⟩
    rw [List.map_singleton, List.mem_singleton] at hj
    rwa [hij, hj] at hi
  · change s.roster.entries = _
    rw [hr]
    change Roster.setStage k.id (.processing now) c'.scheduler.roster.entries = _
    rw [h.entries, Roster.setStage, List.map_map]
    exact List.map_congr_left fun f _ =>
      (Entry.launched_append ds ⟨k.request, now.since k.enqueuedAt⟩ now f).symm
  · change s.roster.nextSequence = _
    rw [hr]
    exact h.nextSequence
  · rw [List.foldl_append]
    exact h.estimator.recordStart now
  · change c'.pending ++ [_] = _
    rw [h.pending, List.append_assoc]
  · rw [List.foldl_append, ← h.events]
    rfl
  · change (if (c'.waiter? k.request.id).isSome then c'.faults else _) = _
    have hw' : c'.waiter? k.request.id = some w := hw
    rw [hw', h.faults]
    rfl

private theorem launched_pullKeeps (c : Controller) (now : Instant) :
    PullKeeps now fun c' => c'.Consistent ∧ ∃ ds, c.Launched now ds c' where
  wellFormed := fun _ h => h.1.scheduler
  quiet := fun _ _ same he ⟨hc, ds, h⟩ => ⟨hc.of_sameWork same, ds, h.of_sameWork same he⟩
  launch := fun _ _ d _ ⟨hc, ds, h⟩ hnext hs => ⟨hc.launch hs, ds ++ [d], h.launch hc hnext hs⟩

private theorem Consistent.launched_pulled (h : c.Consistent) (now : Instant) :
    ∃ ds, c.Launched now ds (c.pulled now) := by
  unfold pulled
  split
  · exact ((launched_pullKeeps c now).pullReady ⟨h, [], launched_self c now⟩).2
  · exact ⟨[], launched_self c now⟩

/-- Nothing that fits is left in the queue. -/
theorem Consistent.selectNext_pulled (h : c.Consistent) (now : Instant) :
    (c.pulled now).scheduler.selectNext ((c.pulled now).budget now) now = none := by
  unfold pulled
  split
  · exact selectNext_pullReady h.scheduler now
  · next hempty =>
    rw [h.scheduler.selectNext_eq_none_iff]
    exact Or.inr fun t ht => absurd (Nat.lt_of_lt_of_le ht (PerTier.get_le_total _ t)) hempty

/-- The controller that considers a newcomer has given the free slots away and counted it. -/
theorem receive_eq (c : Controller) (now : Instant) :
    c.receive now = { c.pulled now with statistics := c.statistics.recordSubmission } := by
  have hpull : Controller.pullReady { c with statistics := c.statistics.recordSubmission } now =
      { c.pullReady now with statistics := c.statistics.recordSubmission } :=
    pullReady_comm (fun c' => { c' with statistics := c.statistics.recordSubmission }) c
      (fun _ => rfl) (fun _ => rfl) (fun _ => rfl) (fun _ _ _ _ => rfl) (fun _ _ => rfl) fun _ => rfl
  unfold receive pulled
  dsimp only
  split
  · exact hpull
  · rfl

@[simp] theorem breaker_pulled (c : Controller) (now : Instant) :
    (c.pulled now).breaker = c.breaker := by
  unfold pulled
  split
  · exact breaker_pullReady c now
  · rfl

@[simp] theorem resolutions_pulled (c : Controller) (now : Instant) :
    (c.pulled now).resolutions = c.resolutions := by
  unfold pulled
  split
  · exact resolutions_pullReady c now
  · rfl

/-! ### Rejections -/

private theorem publishTransitions_eq (c : Controller) : ∃ telemetry, c.publishTransitions =
    { c with
      breaker := { c.breaker with pending := [] }
      telemetry := telemetry
      events := (c.breaker.pending.map fun t => .breakerTransition t.source t.target).foldl
        EventBus.publish c.events } := by
  have h (ts : List BreakerTransition) (c : Controller) :
      ∃ telemetry, ts.foldl publishTransition c =
        { c with
          telemetry := telemetry
          events := (ts.map fun t => .breakerTransition t.source t.target).foldl
            EventBus.publish c.events } := by
    induction ts generalizing c with
    | nil => exact ⟨c.telemetry, rfl⟩
    | cons t ts ih => exact ih (c.publishTransition t)
  exact h c.breaker.pending { c with breaker := { c.breaker with pending := [] } }

/-- The estimator when the level of the budget has been made known. -/
def informed (c : Controller) (now : Instant) : Estimator :=
  { c.estimator with
    lastMaxConcurrent := some (c.budget now).maxConcurrent
    overflowed := c.estimator.overflowed ||
      !c.estimator.measurable now c.estimator.config.decisionWindow }

private theorem refresh_eq (c : Controller) (now : Instant) : ∃ telemetry,
    (c.refresh now).2 = { c with estimator := c.informed now, telemetry := telemetry } := by
  unfold refresh Estimator.refreshBudget informed
  dsimp only
  split
  · next hlevel =>
    refine ⟨c.telemetry, ?_⟩
    unfold budget
    rw [← hlevel]
  · exact ⟨_, rfl⟩

private theorem consult_eq (hp : c.breaker.pending = []) (t : Tier) (now : Instant) :
    ∃ breaker telemetry es, c.breaker.Asked now breaker es ∧
      (c.consult t now).2 =
        { c with
          estimator := c.informed now
          breaker := breaker
          telemetry := telemetry
          events := es.foldl EventBus.publish c.events } := by
  obtain ⟨m, hrefresh⟩ := refresh_eq c now
  obtain ⟨telemetry, htold⟩ := publishTransitions_eq
    { (c.refresh now).2 with breaker := c.breaker.probe now }
  refine ⟨_, telemetry, _, CircuitBreaker.asked_probe hp now, ?_⟩
  refine Eq.trans ?_ (htold.trans ?_)
  · rfl
  · rw [hrefresh]

/-- The effect of a rejection. The queued requests that fit have been dispatched; the submission is
counted, its rejection too, and is told to the observers and to the caller. The breaker may have
been asked, and the level of the budget is then made known. -/
def Declined (c : Controller) (q : Request) (now : Instant) (error : AdmissionError)
    (c' : Controller) : Prop :=
  ∃ estimator breaker telemetry es,
    (estimator = (c.pulled now).estimator ∨ estimator = (c.pulled now).informed now) ∧
    c.breaker.Asked now breaker es ∧
    c' =
      { c.pulled now with
        estimator := estimator
        breaker := breaker
        telemetry := telemetry
        statistics := c.statistics.recordSubmission.recordRejection
        events := (es.foldl EventBus.publish (c.pulled now).events).publish
          (.rejected q.id q.tier error.message)
        resolutions :=
          c.resolutions.push ⟨c.statistics.counters.total, q.id, .error error⟩ }

private theorem declined_unasked (c : Controller) (q : Request) (now : Instant)
    (error : AdmissionError) :
    c.Declined q now error
      ((c.receive now).reject c.statistics.counters.total q error) := by
  refine ⟨_, _, (c.pulled now).telemetry.recordRejection q.tier error.reason, [], Or.inl rfl,
    .stays, ?_⟩
  rw [receive_eq, ← breaker_pulled c now, ← resolutions_pulled c now]
  rfl

private theorem declined_asked (hp : c.breaker.pending = []) (q : Request) (now : Instant)
    (t : Tier) (error : AdmissionError) :
    c.Declined q now error
      (((c.receive now).consult t now).2.reject c.statistics.counters.total q error) := by
  have hp' : (c.receive now).breaker.pending = [] := by rw [breaker_receive, hp]
  obtain ⟨breaker, telemetry, es, hasked, hconsult⟩ := consult_eq hp' t now
  rw [breaker_receive] at hasked
  refine ⟨_, breaker, telemetry.recordRejection q.tier error.reason, es, Or.inr rfl, hasked, ?_⟩
  rw [hconsult, receive_eq, ← resolutions_pulled c now]
  rfl

private theorem submit_refused (hrun : c.gate.phase = .running)
    (hnew : (c.receive now).scheduler.contains q.id = false)
    (hrefuses : ¬ (c.receive now).breaker.Admits q.tier ((c.receive now).budget now).errorRate now) :
    c.submit q now = ((c.receive now).consult q.tier now).2.reject c.statistics.counters.total q
      (.breakerOpen q.tier ((c.receive now).consult q.tier now).2.breaker.state
        ((c.receive now).budget now).errorRate) := by
  have hrun' : (c.receive now).gate.phase = .running := by rw [gate_receive, hrun]
  obtain ⟨g, hg⟩ : ∃ g, (c.receive now).gate.track? = some g :=
    ⟨_, DrainGate.track?_eq_some_iff.2 ⟨hrun', rfl⟩⟩
  have hno : ((c.receive now).consult q.tier now).1 = false := by
    rw [← CircuitBreaker.canProcess_iff (t := q.tier), Bool.not_eq_true, ← refresh_fst] at hrefuses
    exact hrefuses
  unfold submit
  simp only [hg, hnew, Bool.false_eq_true, if_false]
  unfold decideOn
  simp only [hno, Bool.not_false, if_true]

/-- The outcomes handed out belong to earlier submissions. -/
theorem Balanced.submission_lt {ls : Ledger} (h : c.Balanced ls) {r : Resolution}
    (hr : r ∈ c.resolutions.toList) : r.submission < c.statistics.counters.total := by
  obtain ⟨s, hs, -, hn, -⟩ := h.settled.sound r hr
  have hmem : s.number ∈ ls.map Submission.number := List.mem_map_of_mem hs
  rw [h.linked.numbers, List.mem_range, hn] at hmem
  rwa [h.total]

/-- A submission whose caller is told of an error at once was rejected, and that is all it did. -/
theorem Tracked.declined {ls : Ledger} (h : c.Tracked) (hb : c.Balanced ls)
    (hp : c.breaker.pending = []) {error : AdmissionError}
    (told : ⟨c.statistics.counters.total, q.id, .error error⟩ ∈
      (c.submit q now).resolutions.toList) :
    error.isRejection = true ∧ c.Declined q now error (c.submit q now) := by
  -- The outcome is a new one, so it is the one that the rejection hands out.
  have hnew {c' : Controller} {error' : AdmissionError} (hc' : c'.resolutions = c.resolutions)
      (hr : ⟨c.statistics.counters.total, q.id, .error error⟩ ∈
        (c'.reject c.statistics.counters.total q error').resolutions.toList) : error = error' := by
    rw [show (c'.reject c.statistics.counters.total q error').resolutions =
      c'.resolutions.push ⟨_, q.id, .error error'⟩ from rfl, Array.toList_push, hc'] at hr
    rcases List.mem_append.1 hr with hr | hr
    · exact absurd (hb.submission_lt hr) (Nat.lt_irrefl _)
    · cases List.mem_singleton.1 hr
      rfl
  obtain ⟨path, hj⟩ := judged_submit (q := q) (h.receive now).scheduler
  cases path with
  | some path =>
    rw [hj.resolutions_some, resolutions_receive] at told
    exact absurd (hb.submission_lt told) (Nat.lt_irrefl _)
  | none =>
    generalize hc' : c.submit q now = c' at hj told
    cases hj with
    | closed _ =>
      cases hnew (resolutions_receive c now) told
      exact ⟨rfl, declined_unasked c q now _⟩
    | duplicate _ _ =>
      cases hnew (resolutions_receive c now) told
      exact ⟨rfl, declined_unasked c q now _⟩
    | refused _ gate new refuses =>
      rw [gate_receive] at gate
      rw [← hc'] at told ⊢
      rw [submit_refused gate new refuses] at told ⊢
      have hsame := (sameWork_consult (c.receive now) q.tier now).resolutions
      cases hnew (hsame.trans (resolutions_receive c now)) told
      exact ⟨rfl, declined_asked hp q now q.tier _⟩

theorem Tracked.admitted_or_told (h : c.Tracked) (q : Request) (now : Instant) :
    (∃ path, .admitted q.id q.tier path ∈ c.news (c.submit q now)) ∨ ∃ error,
      ⟨c.statistics.counters.total, q.id, .error error⟩ ∈
        (c.submit q now).resolutions.toList := by
  obtain ⟨path, hj⟩ := judged_submit (q := q) (h.receive now).scheduler
  cases path with
  | some path => exact Or.inl ⟨path, (hj.admitted_mem_news_iff path).2 rfl⟩
  | none =>
    have htold (c : Controller) (n : Nat) (error : AdmissionError) :
        ⟨n, q.id, .error error⟩ ∈ (c.reject n q error).resolutions.toList :=
      Array.mem_toList_iff.2 (Array.mem_push_self ..)
    right
    generalize c.submit q now = c' at hj
    cases hj with
    | closed _ | duplicate _ _ | refused _ _ _ _ => exact ⟨_, htold _ _ _⟩

/-! ### Cancellations -/

theorem Consistent.cancel_eq_true_iff (h : c.Consistent) (id : RequestId) :
    (c.cancel id).1 = true ↔ ∃ e ∈ c.scheduler.roster.queuedEntries, e.id = id := by
  constructor
  · have hw := h.withdrawn id
    generalize c.cancel id = p at hw
    cases hw with
    | no => simp
    | @yes _ e _ _ found queued =>
      intro _
      exact ⟨e, Roster.mem_queuedEntries.2 ⟨Roster.mem_of_find? found, queued⟩,
        Roster.find?_id found⟩
  · rintro ⟨e, he, rfl⟩
    obtain ⟨hmem, hqueued⟩ := Roster.mem_queuedEntries.1 he
    obtain ⟨s, hs⟩ := Scheduler.exists_withdraw (h.scheduler.roster.find?_id hmem) hqueued
    unfold cancel
    rw [hs]
    dsimp only
    split <;> rfl

/-- Failed operations leave the controller intact. The dispatches before a newcomer is considered
launch queued requests until none fits, each with its own backend call and notice; the requests that
are tracked, when they came and in which order, the waiters, the gate and the histories of
completions stay. A submission is admitted or its caller is told of an error at once; in that case
it was rejected, has done those dispatches, is counted and told, may have made the breaker probe,
and has left nothing else. A cancellation that returns false changes nothing, and it returns false
exactly when the identifier is not queued. -/
theorem failed_operations_leave_no_trace (config : AdmissionConfig) (ops : List Operation) :
    let c := (new config).after ops
    (∀ now,
      let p := c.pulled now
      (∃ ds, c.Launched now ds p) ∧ p.breaker = c.breaker ∧
      p.scheduler.selectNext (p.budget now) now = none ∧
      p.scheduler.roster.entries.map (fun e => (e.request, e.enqueuedAt, e.sequence)) =
        c.scheduler.roster.entries.map fun e => (e.request, e.enqueuedAt, e.sequence)) ∧
    (∀ q now,
      let c' := c.submit q now
      ((∃ path, .admitted q.id q.tier path ∈ c.news c') ∨ ∃ error,
        ⟨c.statistics.counters.total, q.id, .error error⟩ ∈ c'.resolutions.toList) ∧
      ∀ error, ⟨c.statistics.counters.total, q.id, .error error⟩ ∈ c'.resolutions.toList →
        error.isRejection = true ∧ c.Declined q now error c') ∧
    ∀ id, ((c.cancel id).1 = false → (c.cancel id).2 = c) ∧
      ((c.cancel id).1 = false ↔ ∀ e ∈ c.scheduler.roster.queuedEntries, e.id ≠ id) := by
  intro c
  have h : c.Tracked := tracked_after config ops
  have hb := (balanced_new config).after (tracked_new config) ops
  have hw := (watched_new config).after (tracked_new config) ops
  refine ⟨fun now => ?_, fun q now => ⟨h.admitted_or_told q now, fun error told =>
    h.declined hb hw.pending told⟩, fun id => ⟨fun hno => ?_, ?_⟩⟩
  · obtain ⟨ds, hds⟩ := h.launched_pulled now
    refine ⟨⟨ds, hds⟩, breaker_pulled c now, h.selectNext_pulled now, ?_⟩
    rw [hds.entries, List.map_map]
    refine List.map_congr_left fun e _ => ?_
    simp only [Function.comp_apply, Entry.launched]
    split <;> rfl
  · exact apply_of_cannot (show c.does (.cancel id) = false from hno)
  · rw [← Bool.not_eq_true, h.cancel_eq_true_iff]
    simp

end Controller

end TieredAdmission

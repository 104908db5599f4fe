import Mathlib
import TieredAdmission.Proofs.Admission.Counters
import TieredAdmission.Proofs.Admission.BreakerGate

/-!
# What the collector is told

Telemetry is pushed: every counter, histogram and gauge holds what was last recorded, and nobody
asks the core again. All of it but the queue depths and the level is recorded where an event is
published, so it can be worked out from the events. The queue depths are recorded at the end of the
loop that dispatches queued requests and after a cancellation, and no operation changes a queue
later than that.
-/

namespace TieredAdmission

def AdmissionEvent.isCompletionOf (t : Tier) : AdmissionEvent → Bool
  | completed _ tier _ _ => tier == t
  | _ => false

/-- Every completion is one of a tier and has an outcome. -/
theorem AdmissionEvent.sum_isCompletionOf (es : List AdmissionEvent) :
    (Tier.all.map fun t => es.countP (isCompletionOf t)).sum =
      es.countP (isCompletion true) + es.countP (isCompletion false) := by
  induction es with
  | nil => rfl
  | cons e es ih =>
    simp only [Tier.all, List.map_cons, List.map_nil, List.sum_cons, List.sum_nil,
      List.countP_cons] at ih ⊢
    cases e with
    | completed id t success ms =>
      cases t <;> cases success <;> simp [isCompletionOf, isCompletion] <;> omega
    | admitted | dispatched | rejected | cancelled | breakerTransition => exact ih

/-! ### What a dump shows -/

theorem BreakerState.level_injective : Function.Injective BreakerState.level := by
  intro a b h
  cases a <;> cases b <;> first | rfl | exact absurd h (by decide +kernel)

private theorem Metric.nodup_name : (Metric.all.map Metric.name).Nodup := by decide +kernel

private theorem Metric.mem_all (k : Metric) : k ∈ Metric.all := by
  cases k with
  | admissions t p => cases t <;> cases p <;> simp [all, Tier.all]
  | rejections t r => cases t <;> cases r <;> simp [all, Tier.all, RejectionReason.all]
  | completions t success => cases t <;> cases success <;> simp [all, Tier.all]
  | queueWait t | backendLatency t | queueDepth t => cases t <;> simp [all, Tier.all]
  | maxConcurrent | breakerState => simp [all]

private theorem lookup_filterMap_of_notMem {α β : Type} {name : α → String} {f : α → Option β}
    {x : String} {ks : List α} (h : x ∉ ks.map name) :
    (ks.filterMap fun k => (f k).map fun b => (name k, b)).lookup x = none := by
  rw [List.lookup_eq_none_iff]
  rintro ⟨y, b⟩ hmem
  obtain ⟨k, hk, hb⟩ := List.mem_filterMap.1 hmem
  obtain ⟨b', -, heq⟩ := Option.map_eq_some_iff.1 hb
  cases heq
  have hx : x ≠ name k := fun hx => h (hx ▸ List.mem_map_of_mem hk)
  simpa using hx

private theorem lookup_filterMap_of_nodup {α β : Type} {name : α → String} {f : α → Option β}
    {k : α} {ks : List α} (hn : (ks.map name).Nodup) (hk : k ∈ ks) :
    (ks.filterMap fun k => (f k).map fun b => (name k, b)).lookup (name k) = f k := by
  induction ks with
  | nil => cases hk
  | cons a ks ih =>
    rw [List.map_cons, List.nodup_cons] at hn
    rw [List.filterMap_cons]
    rcases List.mem_cons.1 hk with rfl | hk
    · cases hf : f k with
      | none => exact lookup_filterMap_of_notMem hn.1
      | some b => simp
    · have hne : name k ≠ name a := fun h => hn.1 (h ▸ List.mem_map_of_mem hk)
      cases hf : f a with
      | none => exact ih hn.2 hk
      | some b => simpa [List.lookup_cons, beq_false_of_ne hne] using ih hn.2 hk

namespace Telemetry

/-- No two metrics have the same name, so each is found in the dump under its own. -/
theorem lookup_dump (m : Telemetry) (k : Metric) : m.dump.lookup k.name = m.shown k :=
  lookup_filterMap_of_nodup Metric.nodup_name k.mem_all

/-- What a counter has come to; one that was never raised is at zero. -/
def count (m : Telemetry) (k : Metric) : Nat :=
  match m.dump.lookup k.name with
  | some (.counter n) => n
  | _ => 0

def valueCount (m : Telemetry) (k : Metric) : Nat :=
  match m.dump.lookup k.name with
  | some (.histogram xs) => xs.length
  | _ => 0

private theorem count_eq {m : Telemetry} {k : Metric} {n : Nat} (h : m.shown k = counter? n) :
    m.count k = n := by
  rw [count, lookup_dump, h, counter?]
  by_cases hn : n = 0 <;> simp [hn]

private theorem valueCount_eq {m : Telemetry} {k : Metric} {ds : List Duration}
    (h : m.shown k = histogram? ds) : m.valueCount k = ds.length := by
  rw [valueCount, lookup_dump, h, histogram?]
  cases ds <;> simp

private theorem sum_count_admissions (m : Telemetry) :
    (Tier.all.map fun t =>
      m.count (.admissions t .immediate) + m.count (.admissions t .queued)).sum =
      m.immediate.total + m.queued.total := by
  have himmediate (t : Tier) : m.count (.admissions t .immediate) = m.immediate.get t := count_eq rfl
  have hqueued (t : Tier) : m.count (.admissions t .queued) = m.queued.get t := count_eq rfl
  simp only [himmediate, hqueued, Tier.all, List.map_cons, List.map_nil, List.sum_cons,
    List.sum_nil, PerTier.get, PerTier.total]
  omega

private theorem sum_count_completions (m : Telemetry) (success : Bool) :
    (Tier.all.map fun t => m.count (.completions t success)).sum =
      (if success then m.successes else m.failures).total := by
  have hcount (t : Tier) : m.count (.completions t success) =
      (if success then m.successes else m.failures).get t := count_eq rfl
  simp only [hcount, Tier.all, List.map_cons, List.map_nil, List.sum_cons, List.sum_nil,
    PerTier.get, PerTier.total]
  omega

/-! ### The events and the telemetry -/

/-- What the events tell as well: the counters, the numbers of values in the histograms, and the
state of the breaker. -/
structure Tally where
  immediate : PerTier Nat := .const 0
  queued : PerTier Nat := .const 0
  rejections : Nat := 0
  successes : PerTier Nat := .const 0
  failures : PerTier Nat := .const 0
  waits : PerTier Nat := .const 0
  latencies : PerTier Nat := .const 0
  breaker : Option BreakerState := none

def tally (m : Telemetry) : Tally where
  immediate := m.immediate
  queued := m.queued
  rejections := m.rejections.length
  successes := m.successes
  failures := m.failures
  waits := m.queueWait.map fun _ => List.length
  latencies := m.backendLatency.map fun _ => List.length
  breaker := m.breaker

private theorem get_waits_tally (m : Telemetry) (t : Tier) :
    m.tally.waits.get t = (m.queueWait.get t).length :=
  PerTier.get_map (fun _ => List.length) m.queueWait t

private theorem get_latencies_tally (m : Telemetry) (t : Tier) :
    m.tally.latencies.get t = (m.backendLatency.get t).length :=
  PerTier.get_map (fun _ => List.length) m.backendLatency t

namespace Tally

def note (k : Tally) : AdmissionEvent → Tally
  | .admitted _ t .immediate => { k with immediate := k.immediate.increment t }
  | .admitted _ t .queued => { k with queued := k.queued.increment t }
  | .rejected _ _ _ => { k with rejections := k.rejections + 1 }
  | .completed _ t success _ =>
    { k with
      successes := if success then k.successes.increment t else k.successes
      failures := if success then k.failures else k.failures.increment t
      waits := k.waits.increment t
      latencies := k.latencies.increment t }
  | .breakerTransition _ target => { k with breaker := some target }
  | .dispatched _ _ _ | .cancelled _ _ => k

/-- A number that some events raise by one counts these events. -/
theorem foldl_note_count {f : Tally → Nat} {p : AdmissionEvent → Bool}
    (step : ∀ k e, f (note k e) = f k + if p e then 1 else 0) (k : Tally)
    (es : List AdmissionEvent) : f (es.foldl note k) = f k + es.countP p := by
  induction es generalizing k with
  | nil => rfl
  | cons e es ih =>
    rw [List.foldl_cons, ih, step, List.countP_cons]
    omega

variable (es : List AdmissionEvent)

open AdmissionEvent

private theorem admissions_foldl_note :
    (es.foldl note {}).immediate.total + (es.foldl note {}).queued.total =
      es.countP isAdmission := by
  refine (foldl_note_count (f := fun k => k.immediate.total + k.queued.total) ?_ {} es).trans
    (Nat.zero_add _)
  intro k e
  cases e with
  | admitted id t path => cases path <;> simp [note, isAdmission] <;> omega
  | dispatched | completed | rejected | cancelled | breakerTransition => rfl

private theorem rejections_foldl_note : (es.foldl note {}).rejections = es.countP isRejection := by
  refine (foldl_note_count (f := rejections) ?_ {} es).trans (Nat.zero_add _)
  intro k e
  cases e with
  | admitted id t path => cases path <;> rfl
  | dispatched | completed | rejected | cancelled | breakerTransition => rfl

private theorem successes_foldl_note :
    (es.foldl note {}).successes.total = es.countP (isCompletion true) := by
  refine (foldl_note_count (f := fun k => k.successes.total) ?_ {} es).trans (Nat.zero_add _)
  intro k e
  cases e with
  | admitted id t path => cases path <;> rfl
  | completed id t success ms => cases success <;> simp [note, isCompletion]
  | dispatched | rejected | cancelled | breakerTransition => rfl

private theorem failures_foldl_note :
    (es.foldl note {}).failures.total = es.countP (isCompletion false) := by
  refine (foldl_note_count (f := fun k => k.failures.total) ?_ {} es).trans (Nat.zero_add _)
  intro k e
  cases e with
  | admitted id t path => cases path <;> rfl
  | completed id t success ms => cases success <;> simp [note, isCompletion]
  | dispatched | rejected | cancelled | breakerTransition => rfl

private theorem waits_foldl_note (t : Tier) :
    (es.foldl note {}).waits.get t = es.countP (isCompletionOf t) := by
  have hzero : (({} : Tally).waits.get t) = 0 := PerTier.get_const 0 t
  refine (foldl_note_count (f := fun k => k.waits.get t) (p := isCompletionOf t) ?_ {} es).trans
    (by rw [hzero, Nat.zero_add])
  intro k e
  cases e with
  | admitted id t' path => cases path <;> rfl
  | completed id t' success ms =>
    simp only [note, isCompletionOf, PerTier.get_increment, beq_iff_eq, eq_comm (a := t)]
    split <;> rfl
  | dispatched | rejected | cancelled | breakerTransition => rfl

/-- Both histograms get a value with every completion. -/
theorem latencies_foldl_note : (es.foldl note {}).latencies = (es.foldl note {}).waits := by
  refine List.foldlRecOn (b := {}) (motive := fun k => k.latencies = k.waits) es note rfl
    fun k hk e _ => ?_
  cases e with
  | admitted id t path => cases path <;> exact hk
  | completed id t success ms => exact congrArg (PerTier.increment · t) hk
  | dispatched | rejected | cancelled | breakerTransition => exact hk

private theorem breaker_foldl_note (k : Tally) :
    (es.foldl note k).breaker.getD .closed =
      es.foldl BreakerState.hear (k.breaker.getD .closed) := by
  induction es generalizing k with
  | nil => rfl
  | cons e es ih =>
    rw [List.foldl_cons, List.foldl_cons, ih]
    cases e with
    | admitted id t path => cases path <;> rfl
    | dispatched | completed | rejected | cancelled | breakerTransition => rfl

end Tally

/-- Every rejection has a tier and a reason. -/
theorem sum_count_rejections (m : Telemetry) :
    (Tier.all.map fun t => (RejectionReason.all.map fun r => m.count (.rejections t r)).sum).sum =
      m.rejections.length := by
  have hcount (t : Tier) (r : RejectionReason) : m.count (.rejections t r) = m.rejectionCount t r :=
    count_eq rfl
  simp only [hcount, rejectionCount]
  induction m.rejections with
  | nil => rfl
  | cons p rs ih =>
    rw [List.length_cons, ← ih]
    obtain ⟨t, r⟩ := p
    cases t <;> cases r <;> simp [Tier.all, RejectionReason.all, List.count_cons] <;> omega

end Telemetry

namespace Controller

open Telemetry AdmissionEvent

variable {c c' : Controller} {now : Instant} {f g : Tally → Tally}

/-- The telemetry is that of the events published so far, once `f` has been done to it. -/
def CountedBy (f : Tally → Tally) (c : Controller) : Prop :=
  f c.telemetry.tally = c.events.history.toList.foldl Tally.note {}

/-- The queue depths recorded last are those of the scheduler; none were recorded of a queue that is
empty still. -/
def DepthsKnown (c : Controller) : Prop :=
  ∀ t, (c.telemetry.queueDepth.get t).getD 0 = c.scheduler.queued.get t

/-- The collector knows the state of the controller. -/
structure Collected (c : Controller) : Prop where
  counted : c.CountedBy id
  depths : c.DepthsKnown

theorem collected_new (config : AdmissionConfig) : (new config).Collected where
  counted := rfl
  depths := fun t => by
    cases t <;> simp [new, Scheduler.queued, Scheduler.roster_new, PerTier.const, PerTier.get]

/-- The telemetry stays that of the events when what is recorded is what the events tell. -/
theorem CountedBy.tells {es : List AdmissionEvent} (h : c.CountedBy f)
    (he : c'.events.history.toList = c.events.history.toList ++ es)
    (hm : g c'.telemetry.tally = es.foldl Tally.note (f c.telemetry.tally)) : c'.CountedBy g := by
  rw [CountedBy, hm, h, he, List.foldl_append]

theorem CountedBy.of_same (h : c.CountedBy f) (hm : c'.telemetry.tally = c.telemetry.tally)
    (he : c'.events = c.events) : c'.CountedBy f := by
  have hnone : c'.events.history.toList = c.events.history.toList ++ [] := by
    rw [he, List.append_nil]
  exact h.tells hnone (congrArg f hm)

theorem Collected.of_same (h : c.Collected) (hm : c'.telemetry = c.telemetry)
    (hs : c'.scheduler = c.scheduler) (he : c'.events = c.events) : c'.Collected where
  counted := h.counted.of_same (congrArg tally hm) he
  depths := by
    rw [DepthsKnown, hm, hs]
    exact h.depths

/-! ### The dispatching loop -/

/-- Making the level known records nothing else. -/
theorem telemetry_refresh (c : Controller) (now : Instant) :
    (c.refresh now).2.telemetry.tally = c.telemetry.tally ∧
      (c.refresh now).2.telemetry.queueDepth = c.telemetry.queueDepth := by
  unfold refresh Estimator.refreshBudget
  dsimp only
  split <;> exact ⟨rfl, rfl⟩

private theorem tally_pullReady (c : Controller) (now : Instant) :
    (c.pullReady now).telemetry.tally = c.telemetry.tally :=
  pullReady_keeps (fun c => c.telemetry.tally) c (fun c => (telemetry_refresh c now).1)
    (fun _ _ _ _ => rfl) (fun _ _ => rfl) fun _ => rfl

theorem CountedBy.pullReady (h : c.CountedBy f) (now : Instant) :
    (c.pullReady now).CountedBy f := by
  obtain ⟨es, hes, hdispatch⟩ := tellsOfDispatches_pullReady c now
  refine h.tells hes ?_
  rw [tally_pullReady, AdmissionEvent.foldl_dispatches (fun _ _ _ _ => rfl) hdispatch]

theorem depthsKnown_recordQueueDepths (c : Controller) : c.recordQueueDepths.DepthsKnown := by
  intro t
  cases t <;> rfl

/-- The loop ends with the depths recorded. -/
theorem CountedBy.collected_pullReady (h : c.CountedBy id) (now : Instant) :
    (c.pullReady now).Collected :=
  ⟨h.pullReady now, depthsKnown_recordQueueDepths _⟩

/-! ### Submissions -/

theorem Collected.receive (h : c.Collected) (now : Instant) : (c.receive now).Collected := by
  have hcounted : CountedBy id { c with statistics := c.statistics.recordSubmission } := h.counted
  unfold Controller.receive
  dsimp only
  split
  · exact hcounted.collected_pullReady now
  · exact h.of_same rfl rfl rfl

theorem Collected.reject (h : c.Collected) {n : Nat} {q : Request} {error : AdmissionError} :
    (c.reject n q error).Collected :=
  ⟨h.counted.tells Array.toList_push rfl, h.depths⟩

theorem telemetry_publishTransitions (c : Controller) :
    c.publishTransitions.telemetry.tally =
      (c.breaker.pending.map fun t => AdmissionEvent.breakerTransition t.source t.target).foldl
        Tally.note c.telemetry.tally ∧
    c.publishTransitions.telemetry.queueDepth = c.telemetry.queueDepth := by
  have hfold (ts : List BreakerTransition) (c : Controller) :
      (ts.foldl publishTransition c).telemetry.tally =
        (ts.map fun t => AdmissionEvent.breakerTransition t.source t.target).foldl
          Tally.note c.telemetry.tally ∧
      (ts.foldl publishTransition c).telemetry.queueDepth = c.telemetry.queueDepth := by
    induction ts generalizing c with
    | nil => exact ⟨rfl, rfl⟩
    | cons t ts ih => exact ih _
  exact hfold _ _

theorem Collected.publishTransitions (h : c.Collected) : c.publishTransitions.Collected where
  counted := h.counted.tells (history_publishTransitions c) (telemetry_publishTransitions c).1
  depths := by
    rw [DepthsKnown, (telemetry_publishTransitions c).2, (sameWork_publishTransitions c).scheduler]
    exact h.depths

theorem Collected.refresh (h : c.Collected) (now : Instant) : (c.refresh now).2.Collected where
  counted := h.counted.of_same (telemetry_refresh c now).1 rfl
  depths := by
    rw [DepthsKnown, (telemetry_refresh c now).2]
    exact h.depths

theorem Collected.consult (h : c.Collected) (t : Tier) (now : Instant) :
    (c.consult t now).2.Collected :=
  Collected.publishTransitions ((h.refresh now).of_same rfl rfl rfl)

/-- An admission is recorded when it is published. -/
theorem CountedBy.register (h : c.CountedBy id) (n : Nat) (q : Request) (path : DispatchPath)
    (s : Scheduler) (gate : DrainGate) : (c.register n q path s gate).CountedBy id :=
  h.tells Array.toList_push (by cases path <;> rfl)

theorem CountedBy.depart (h : c.CountedBy id) (q : Request) (d : Dispatch) (ms : Nat)
    (now : Instant) : (c.depart q d ms now).CountedBy id :=
  h.tells Array.toList_push rfl

/-- Admissions end with the loop, which records the depths of the queues. -/
theorem Collected.submit (h : c.Collected) (hc : c.Tracked) (q : Request) (now : Instant) :
    (c.submit q now).Collected := by
  have hr := h.receive now
  have hwf : (c.receive now).scheduler.WellFormed := (hc.receive now).scheduler
  unfold Controller.submit
  dsimp only
  generalize c.receive now = r at hr hwf
  split
  · exact hr.reject
  · split
    · exact hr.reject
    · next hnew =>
      have hasked := hr.consult q.tier now
      have hs := (sameWork_consult r q.tier now).scheduler
      unfold decideOn
      dsimp only
      generalize r.consult q.tier now = p at hasked hs
      replace hnew : p.2.scheduler.contains q.id = false := by simpa [hs] using hnew
      split
      · exact hasked.reject
      · split
        · obtain ⟨s, hbegin, -⟩ := (hs ▸ hwf).beginProcessing now hnew
          simp only [dispatchNow, hbegin]
          exact ((hasked.counted.register ..).depart ..).collected_pullReady now
        · obtain ⟨s, henqueue, -⟩ := (hs ▸ hwf).enqueue now hnew
          simp only [Controller.enqueue, henqueue]
          exact (hasked.counted.register ..).collected_pullReady now

/-! ### Endings -/

private theorem telemetry_untrack (c : Controller) (id : RequestId) :
    (c.untrack id).telemetry = c.telemetry := by
  unfold untrack
  split <;> rfl

private theorem telemetry_deliver (c : Controller) (w : Waiter)
    (result : Except AdmissionError Completion) : (c.deliver w result).telemetry = c.telemetry := by
  unfold deliver
  dsimp only
  split <;> rfl

theorem Collected.deliver (h : c.Collected) (w : Waiter)
    (result : Except AdmissionError Completion) : (c.deliver w result).Collected :=
  h.of_same (telemetry_deliver c w result) (scheduler_deliver c w result)
    (events_deliver c w result)

theorem CountedBy.dropWaiter (h : c.CountedBy f) (id : RequestId) :
    (c.dropWaiter id).CountedBy f := h

/-- The end of a call is published before it is recorded. -/
theorem CountedBy.account (h : c.CountedBy id) (call : Call) (outcome : CallOutcome)
    (now : Instant) :
    (c.account call (now.since call.startedAt) outcome.result.isOk now).CountedBy fun k =>
      k.note (.completed call.request.id call.request.tier outcome.result.isOk
        (now.since call.startedAt).millisWord) := by
  have hm : (c.account call (now.since call.startedAt) outcome.result.isOk now).telemetry.tally =
      ((c.heard call outcome now).breaker.pending.map fun t =>
        AdmissionEvent.breakerTransition t.source t.target).foldl Tally.note c.telemetry.tally := by
    unfold Controller.account
    dsimp only
    rw [← heard]
    exact (congrArg tally (telemetry_untrack _ _)).trans (telemetry_publishTransitions _).1
  refine h.tells ((history_account c call outcome now).trans (List.append_assoc ..)) ?_
  rw [hm, List.foldl_append]
  rfl

/-- What is recorded of a call that ended is what its event tells. -/
theorem tally_recordCompletion (m : Telemetry) (id : RequestId) (t : Tier) (success : Bool)
    (waited latency : Duration) (ms : Nat) :
    ((m.recordCompletion t success waited).recordLatency t latency).tally =
      m.tally.note (.completed id t success ms) := by
  cases success <;> cases t <;> rfl

theorem Collected.finish (h : c.Collected) (call : Call) (outcome : CallOutcome) (now : Instant) :
    (c.finish call outcome now).Collected := by
  have ha := h.counted.account call outcome now
  unfold Controller.finish
  dsimp only
  generalize c.account call (now.since call.startedAt) outcome.result.isOk now = a at ha
  have hp := (ha.dropWaiter call.request.id).pullReady now
  have hd : ((a.dropWaiter call.request.id).pullReady now).DepthsKnown :=
    depthsKnown_recordQueueDepths _
  generalize (a.dropWaiter call.request.id).pullReady now = p at hp hd
  have hrecorded : Collected
      { p with
        telemetry :=
          (p.telemetry.recordCompletion call.request.tier outcome.result.isOk
            call.waited).recordLatency call.request.tier (now.since call.startedAt) } := by
    refine ⟨(tally_recordCompletion ..).trans hp, fun t => ?_⟩
    rw [← hd t]
    cases outcome.result.isOk <;> rfl
  split
  · exact hrecorded.of_same rfl rfl rfl
  · exact hrecorded.deliver ..

/-- A cancellation is not counted, and records the depths of the queues. -/
theorem Collected.cancel (h : c.Collected) (id : RequestId) : (c.cancel id).2.Collected := by
  unfold Controller.cancel
  split
  · exact h
  · next q s _ =>
    have hcancelled : Collected
        ((recordQueueDepths
          { c with scheduler := s, statistics := c.statistics.recordCancellation }).publish
          (.cancelled id q.tier)) :=
      ⟨h.counted.tells Array.toList_push rfl,
        depthsKnown_recordQueueDepths { c with scheduler := s }⟩
    dsimp only
    generalize publish _ _ = p at hcancelled
    split
    · exact hcancelled
    · exact Collected.deliver (c := p.dropWaiter id) (hcancelled.of_same rfl rfl rfl) ..

/-! ### Every operation -/

theorem Collected.apply (h : c.Collected) (hc : c.Tracked) (op : Operation) :
    (c.apply op).Collected := by
  cases op with
  | submit q now => exact h.submit hc q now
  | beginCall position now =>
    rw [Controller.apply]
    cases hb : c.beginAt? position now with
    | none => exact h
    | some p =>
      obtain ⟨call, c'⟩ := p
      obtain ⟨d, -, -, rfl⟩ := beginAt?_eq_some hb
      exact h.of_same rfl rfl rfl
  | endCall id outcome now =>
    rw [Controller.apply, finishRunning?]
    cases c.running.find? fun call => call.request.id == id with
    | none => exact h
    | some call => exact h.finish call outcome now
  | cancel id => exact h.cancel id
  | abandon id =>
    rw [Controller.apply, abandon]
    split
    · exact h.of_same rfl rfl rfl
    · exact h
  | drain limit => exact h.of_same rfl rfl rfl
  | passTime d =>
    rw [Controller.apply, passTime?]
    cases c.gate.pass? d with
    | none => exact h
    | some gate => exact h.of_same rfl rfl rfl

theorem collected_after (config : AdmissionConfig) (ops : List Operation) :
    ((new config).after ops).Collected := by
  have h : ((new config).after ops).Tracked ∧ ((new config).after ops).Collected :=
    after_induction (P := fun c => c.Tracked ∧ c.Collected)
      (fun _ op h => ⟨h.1.apply op, h.2.apply h.1 op⟩) ⟨tracked_new config, collected_new config⟩
      ops
  exact h.2

/-! ### What the collector knows -/

/-- What was recorded last counts, and a default does when nothing was. -/
private theorem map_eq_some_getD_or {α β : Type} (f : α → β) (o : Option α) (a : α) :
    o.map f = some (f (o.getD a)) ∨ o.map f = none ∧ o.getD a = a := by
  cases o with
  | none => exact Or.inr ⟨rfl, rfl⟩
  | some x => exact Or.inl rfl

theorem Collected.depth (h : c.Collected) (t : Tier) :
    c.telemetry.dump.lookup (Metric.queueDepth t).name =
        some (.gauge (c.scheduler.queued.get t).toUInt64.toFloat) ∨
      c.telemetry.dump.lookup (Metric.queueDepth t).name = none ∧
        c.scheduler.queued.get t = 0 := by
  rw [lookup_dump, ← h.depths t]
  exact map_eq_some_getD_or _ _ 0

private theorem Collected.told_breaker (h : c.Collected) :
    c.telemetry.breaker.getD .closed = c.events.history.toList.foldl BreakerState.hear .closed :=
  (congrArg (fun k => k.breaker.getD .closed) h.counted).trans (Tally.breaker_foldl_note _ {})

theorem Collected.admissions (h : c.Collected) :
    (Tier.all.map fun t => c.telemetry.count (.admissions t .immediate) +
      c.telemetry.count (.admissions t .queued)).sum =
      c.events.history.toList.countP isAdmission := by
  rw [sum_count_admissions]
  exact (congrArg (fun k => k.immediate.total + k.queued.total) h.counted).trans
    (Tally.admissions_foldl_note _)

theorem Collected.rejections (h : c.Collected) :
    (Tier.all.map fun t =>
      (RejectionReason.all.map fun r => c.telemetry.count (.rejections t r)).sum).sum =
      c.events.history.toList.countP isRejection := by
  rw [sum_count_rejections]
  exact (congrArg Tally.rejections h.counted).trans (Tally.rejections_foldl_note _)

theorem Collected.successes (h : c.Collected) :
    (Tier.all.map fun t => c.telemetry.count (.completions t true)).sum =
      c.events.history.toList.countP (isCompletion true) := by
  rw [sum_count_completions]
  exact (congrArg (·.successes.total) h.counted).trans (Tally.successes_foldl_note _)

theorem Collected.failures (h : c.Collected) :
    (Tier.all.map fun t => c.telemetry.count (.completions t false)).sum =
      c.events.history.toList.countP (isCompletion false) := by
  rw [sum_count_completions]
  exact (congrArg (·.failures.total) h.counted).trans (Tally.failures_foldl_note _)

theorem Collected.waits (h : c.Collected) (t : Tier) :
    c.telemetry.valueCount (.queueWait t) =
      c.events.history.toList.countP (isCompletionOf t) := by
  rw [valueCount_eq rfl, ← get_waits_tally]
  exact (congrArg (·.waits.get t) h.counted).trans (Tally.waits_foldl_note _ t)

/-- Both histograms of a tier have as many values. -/
theorem Collected.latencies (h : c.Collected) (t : Tier) :
    c.telemetry.valueCount (.backendLatency t) = c.telemetry.valueCount (.queueWait t) := by
  have htold : c.telemetry.tally = c.events.history.toList.foldl Tally.note {} := h.counted
  rw [valueCount_eq rfl, valueCount_eq rfl, ← get_latencies_tally, ← get_waits_tally, htold,
    Tally.latencies_foldl_note]

/-- After any run the series that the collector dumps agree with the state. A gauge that was set
shows what the scheduler or the breaker shows now, and one that was never set stands for an empty
queue or a closed breaker; the number that the breaker's gauge shows is that of no other state. The
counters add up to those of the statistics, and each tier's histograms have one value for each of
its completions. -/
theorem telemetry_agrees_with_state (config : AdmissionConfig) (ops : List Operation) :
    let c := (new config).after ops
    let m := c.telemetry
    let k := c.statistics.counters
    let shown (x : Metric) := m.dump.lookup x.name
    let completions (t : Tier) := c.events.history.toList.countP (AdmissionEvent.isCompletionOf t)
    (∀ t, shown (.queueDepth t) = some (.gauge (c.scheduler.queued.get t).toUInt64.toFloat) ∨
      shown (.queueDepth t) = none ∧ c.scheduler.queued.get t = 0) ∧
    (shown .breakerState = some (.gauge
        (match c.breaker.state with
        | .closed => 0.0
        | .halfOpen => 1.0
        | .opened => 2.0)) ∨
      shown .breakerState = none ∧ c.breaker.state = .closed) ∧
    (∀ b : BreakerState, shown .breakerState = some (.gauge b.level) → c.breaker.state = b) ∧
    (Tier.all.map fun t =>
      m.count (.admissions t .immediate) + m.count (.admissions t .queued)).sum =
        k.total - k.rejected ∧
    (Tier.all.map fun t => (RejectionReason.all.map fun r => m.count (.rejections t r)).sum).sum =
      k.rejected ∧
    (Tier.all.map fun t => m.count (.completions t true)).sum = k.succeeded ∧
    (Tier.all.map fun t => m.count (.completions t false)).sum = k.failed ∧
    (∀ t, m.valueCount (.queueWait t) = completions t ∧
      m.valueCount (.backendLatency t) = completions t) ∧
    (Tier.all.map completions).sum = k.succeeded + k.failed := by
  intro c m k shown completions
  let events := c.events.history.toList
  have h : c.Collected := collected_after config ops
  have hbreaker : m.breaker.getD .closed = c.breaker.state :=
    h.told_breaker.trans (watched_after config ops).told
  have hgauge : shown .breakerState = m.breaker.map fun b => .gauge b.level := lookup_dump m _
  have hk : k = events.foldl RequestCounters.note {} := (accounts_after config ops).told
  simp only [RequestCounters.foldl_note, Nat.zero_add] at hk
  have htotal : k.total = events.countP isAdmission + events.countP isRejection := by rw [hk]
  have hrejected : k.rejected = events.countP isRejection := by rw [hk]
  have hsucceeded : k.succeeded = events.countP (isCompletion true) := by rw [hk]
  have hfailed : k.failed = events.countP (isCompletion false) := by rw [hk]
  refine ⟨h.depth, ?_, fun b hb => ?_, ?_, h.rejections.trans hrejected.symm,
    h.successes.trans hsucceeded.symm, h.failures.trans hfailed.symm,
    fun t => ⟨h.waits t, (h.latencies t).trans (h.waits t)⟩, ?_⟩
  · rw [hgauge, ← hbreaker]
    exact map_eq_some_getD_or (fun b => Series.gauge b.level) m.breaker .closed
  · rw [hgauge] at hb
    obtain ⟨b', hb', hlevel⟩ := Option.map_eq_some_iff.1 hb
    rw [← hbreaker, hb']
    exact BreakerState.level_injective (Series.gauge.inj hlevel)
  · rw [htotal, hrejected, Nat.add_sub_cancel]
    exact h.admissions
  · rw [hsucceeded, hfailed]
    exact sum_isCompletionOf events

end Controller

end TieredAdmission

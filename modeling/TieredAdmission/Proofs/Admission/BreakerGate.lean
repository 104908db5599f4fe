import TieredAdmission.Proofs.Admission.Frame

/-!
# The breaker at the gate

The breaker is asked by submissions and hears of every backend call that ends, and each change of
its state is told to the observers at once. So they know its state at any place of the events, and
nothing is admitted at a place where it is open. It leaves the open state only when a submission
asks it later than its timeout allows, counted from the last failure of the run, even if it was open
at that failure already.
-/

namespace TieredAdmission

/-- The change of the breaker that an event tells of. -/
def AdmissionEvent.breakerChange? : AdmissionEvent → Option BreakerTransition
  | .breakerTransition source target => some ⟨source, target⟩
  | .admitted _ _ _ | .dispatched _ _ _ | .completed _ _ _ _ | .rejected _ _ _ | .cancelled _ _ =>
    none

namespace BreakerState

/-- The state that the observers know after an event. -/
def hear (s : BreakerState) : AdmissionEvent → BreakerState
  | .breakerTransition _ target => target
  | .admitted _ _ _ | .dispatched _ _ _ | .completed _ _ _ _ | .rejected _ _ _ | .cancelled _ _ => s

/-- Nothing is admitted while the state, followed through the events, is open. -/
def Guards : BreakerState → List AdmissionEvent → Prop
  | _, [] => True
  | s, e :: es => (e.isAdmission = true → s ≠ .opened) ∧ (s.hear e).Guards es

variable {s : BreakerState} {es fs : List AdmissionEvent}

private theorem filterMap_transitions (ts : List BreakerTransition) :
    (ts.map fun t => AdmissionEvent.breakerTransition t.source t.target).filterMap
      AdmissionEvent.breakerChange? = ts := by
  rw [List.filterMap_map]
  exact List.filterMap_some

theorem filterMap_dispatches (h : ∀ e ∈ es, e.isDispatch = true) :
    es.filterMap AdmissionEvent.breakerChange? = [] := by
  refine List.filterMap_eq_nil_iff.2 fun e he => ?_
  have hd := h e he
  cases e with
  | dispatched => rfl
  | admitted | completed | rejected | cancelled | breakerTransition => cases hd

/-- The observers know the state from the changes. -/
theorem foldl_hear (es : List AdmissionEvent) (s : BreakerState) :
    es.foldl hear s =
      (es.filterMap AdmissionEvent.breakerChange?).foldl (fun _ t => t.target) s := by
  induction es generalizing s with
  | nil => rfl
  | cons e es ih => cases e <;> exact ih _

private theorem foldl_hear_dispatches (h : ∀ e ∈ es, e.isDispatch = true) (s : BreakerState) :
    es.foldl hear s = s := AdmissionEvent.foldl_dispatches (fun _ _ _ _ => rfl) h s

theorem guards_append : s.Guards (es ++ fs) ↔ s.Guards es ∧ (es.foldl hear s).Guards fs := by
  induction es generalizing s with
  | nil => exact (true_and _).to_iff.symm
  | cons e es ih => exact (and_congr_right fun _ => ih).trans and_assoc.symm

theorem guards_cons_of {e : AdmissionEvent} (he : e.isAdmission = false)
    (h : (s.hear e).Guards es) : s.Guards (e :: es) :=
  ⟨fun ha => absurd ha (Bool.eq_false_iff.1 he), h⟩

private theorem guards_of_no_admission (h : ∀ e ∈ es, e.isAdmission = false) : s.Guards es := by
  induction es generalizing s with
  | nil => trivial
  | cons e es ih =>
    exact guards_cons_of (h e List.mem_cons_self) (ih fun e he => h e (List.mem_cons_of_mem _ he))

theorem guards_dispatches (h : ∀ e ∈ es, e.isDispatch = true) : s.Guards es :=
  guards_of_no_admission fun e he => AdmissionEvent.isAdmission_of_isDispatch (h e he)

private theorem guards_transitions (ts : List BreakerTransition) :
    s.Guards (ts.map fun t => .breakerTransition t.source t.target) :=
  guards_of_no_admission fun e he => by
    obtain ⟨t, -, rfl⟩ := List.mem_map.1 he
    rfl

end BreakerState

namespace Controller

open BreakerState

variable {c c' : Controller} {b : CircuitBreaker} {now : Instant} {config : AdmissionConfig}
  {failed : Option Instant}

/-- The breaker is now `b`, its changes and no others have been told, and nothing was admitted
while it was open. -/
structure Shows (c : Controller) (b : CircuitBreaker) (c' : Controller) : Prop where
  breaker : c'.breaker = { b with pending := [] }
  leads : b.LeadsFrom c.breaker.state
  told : ∃ es, c'.events.history.toList = c.events.history.toList ++ es ∧
    es.filterMap AdmissionEvent.breakerChange? = b.pending ∧ c.breaker.state.Guards es

/-- What is told after the changes is told at the new state. -/
theorem shows_of_told {es : List AdmissionEvent} (hl : b.LeadsFrom c.breaker.state)
    (hb : c'.breaker = { b with pending := [] })
    (he : c'.events.history.toList = c.events.history.toList ++
      (b.pending.map fun t => .breakerTransition t.source t.target) ++ es)
    (hs : es.filterMap AdmissionEvent.breakerChange? = []) (hg : b.state.Guards es) :
    c.Shows b c' where
  breaker := hb
  leads := hl
  told := by
    refine ⟨_, he.trans (List.append_assoc ..), ?_, ?_⟩
    · rw [List.filterMap_append, filterMap_transitions, hs, List.append_nil]
    · rw [guards_append, foldl_hear, filterMap_transitions, hl]
      exact ⟨guards_transitions _, hg⟩

/-- The breaker has no change to tell and stays as it is. -/
theorem shows_of_same {es : List AdmissionEvent} (hp : c.breaker.pending = [])
    (hb : c'.breaker = c.breaker)
    (he : c'.events.history.toList = c.events.history.toList ++ es)
    (hs : es.filterMap AdmissionEvent.breakerChange? = []) (hg : c.breaker.state.Guards es) :
    c.Shows c.breaker c' where
  breaker := by rw [hb, ← hp]
  leads := .of_pending_nil hp
  told := ⟨es, he, hs.trans hp.symm, hg⟩

theorem shows_self (hp : c.breaker.pending = []) (hb : c'.breaker = c.breaker)
    (he : c'.events = c.events) : c.Shows c.breaker c' := by
  have he' : c'.events.history.toList = c.events.history.toList ++ [] := by
    rw [he, List.append_nil]
  exact shows_of_same hp hb he' rfl trivial

/-! ### Submissions -/

/-- The breaker after a submission. Only one that is neither late nor a duplicate asks it. -/
def breakerAsked (c : Controller) (q : Request) (now : Instant) : CircuitBreaker :=
  if c.gate.phase = .running ∧ c.scheduler.contains q.id = false then c.breaker.probe now
  else c.breaker

section Judged

variable {n : Nat} {q : Request}

/-- What an admission takes, and the breaker that it leaves. -/
theorem Judged.admission {path : DispatchPath} (h : Judged c n q now (some path) c') :
    c.breakerAsked q now = c.breaker.probe now ∧
      c.breaker.Admits q.tier (c.budget now).errorRate now ∧
      c'.breaker = { c.breaker.probe now with pending := [] } := by
  cases h with
  | immediate asked gate new admits _ _ _ _ _ =>
    refine ⟨if_pos ⟨(DrainGate.track?_eq_some_iff.1 gate).1, new⟩, admits, ?_⟩
    rw [breaker_pullReady]
    exact asked.breaker
  | queued asked gate new admits _ _ _ _ =>
    refine ⟨if_pos ⟨(DrainGate.track?_eq_some_iff.1 gate).1, new⟩, admits, ?_⟩
    rw [breaker_pullReady]
    exact asked.breaker

theorem Judged.resolutions_some {path : DispatchPath} (h : Judged c n q now (some path) c') :
    c'.resolutions = c.resolutions := by
  cases h with
  | immediate asked =>
    rw [resolutions_pullReady]
    exact asked.resolutions
  | queued asked =>
    rw [resolutions_pullReady]
    exact asked.resolutions

/-- Why a submission that the breaker was asked about is rejected, and what its caller is told. -/
theorem Judged.refusal (h : Judged c n q now none c') (hrun : c.gate.phase = .running)
    (hnew : c.scheduler.contains q.id = false) :
    ¬ c.breaker.Admits q.tier (c.budget now).errorRate now ∧
      c'.resolutions = c.resolutions.push
        ⟨n, q.id, .error (.breakerOpen q.tier c'.breaker.state (c.budget now).errorRate)⟩ := by
  cases h with
  | closed gate => exact absurd hrun gate
  | duplicate _ tracked =>
    rw [hnew] at tracked
    cases tracked
  | @refused c₁ asked _ _ refuses =>
    refine ⟨refuses, ?_⟩
    change c₁.resolutions.push _ = _
    rw [asked.resolutions]
    rfl

private theorem Judged.isSome_iff {path : Option DispatchPath} (h : Judged c n q now path c')
    (hrun : c.gate.phase = .running) (hnew : c.scheduler.contains q.id = false) :
    path.isSome = true ↔ c.breaker.Admits q.tier (c.budget now).errorRate now := by
  cases path with
  | none => simp [(h.refusal hrun hnew).1]
  | some path => simp [h.admission.2.1]

theorem Judged.shows {path : Option DispatchPath} (h : Judged c n q now path c')
    (hp : c.breaker.pending = []) : c.Shows (c.breakerAsked q now) c' := by
  have hl := (CircuitBreaker.LeadsFrom.of_pending_nil hp).probe now
  cases path with
  | none =>
    cases h with
    | closed gate =>
      rw [breakerAsked, if_neg fun h => gate h.1]
      exact shows_of_same hp rfl (history_reject _) rfl (guards_cons_of rfl trivial)
    | duplicate _ tracked =>
      rw [breakerAsked, if_neg (by simp [tracked])]
      exact shows_of_same hp rfl (history_reject _) rfl (guards_cons_of rfl trivial)
    | @refused c₁ asked gate new _ =>
      rw [breakerAsked, if_pos ⟨gate, new⟩]
      have he := history_reject (c := c₁) (n := n) (q := q)
        (.breakerOpen q.tier c₁.breaker.state (c.budget now).errorRate)
      rw [asked.told] at he
      exact shows_of_told hl asked.breaker he rfl (guards_cons_of rfl trivial)
  | some path =>
    obtain ⟨hasked, hadmits, hb⟩ := h.admission
    obtain ⟨es, hes, hdispatch⟩ := h.told_some
    rw [hasked]
    exact shows_of_told hl hb hes
      ((List.filterMap_cons_none rfl).trans (filterMap_dispatches hdispatch))
      ⟨fun _ => CircuitBreaker.state_probe_ne_opened_iff.2 hadmits.1, guards_dispatches hdispatch⟩

end Judged

/-- Dispatched requests stay tracked. -/
theorem Tracked.contains_receive (h : c.Tracked) (now : Instant) (id : RequestId) :
    (c.receive now).scheduler.contains id = c.scheduler.contains id := by
  have hr := h.receive now
  have hids := hr.waiters
  rw [receive_keeps c now waiters fun c => waiters_pullReady c now] at hids
  have hiff : (c.receive now).scheduler.contains id = true ↔ c.scheduler.contains id = true := by
    rw [Scheduler.contains, Scheduler.contains, Roster.contains_iff, Roster.contains_iff, ← hids,
      h.waiters]
  exact Bool.eq_iff_iff.2 hiff

/-- The dispatches before a newcomer is considered leave the breaker alone. -/
theorem Tracked.shows_submit (h : c.Tracked) (hp : c.breaker.pending = []) (q : Request)
    (now : Instant) : c.Shows (c.breakerAsked q now) (c.submit q now) := by
  have hasked : (c.receive now).breakerAsked q now = c.breakerAsked q now := by
    rw [breakerAsked, gate_receive, breaker_receive, h.contains_receive]
    rfl
  obtain ⟨path, hj⟩ := judged_submit (q := q) (h.receive now).scheduler
  obtain ⟨hb, hl, es, hes, hs, hg⟩ := hj.shows (by rw [breaker_receive, hp])
  obtain ⟨ds, hds, hdispatch⟩ := tellsOfDispatches_receive c now
  rw [hasked] at hb hl hs
  rw [breaker_receive] at hl hg
  rw [hds, List.append_assoc] at hes
  refine ⟨hb, hl, ds ++ es, hes, ?_, ?_⟩
  · rw [List.filterMap_append, filterMap_dispatches hdispatch, hs, List.nil_append]
  · rw [guards_append, foldl_hear_dispatches hdispatch]
    exact ⟨guards_dispatches hdispatch, hg⟩

/-! ### Ends of calls -/

private theorem events_untrack (c : Controller) (id : RequestId) :
    (c.untrack id).events = c.events := by
  unfold untrack
  split <;> rfl

private theorem breaker_untrack (c : Controller) (id : RequestId) :
    (c.untrack id).breaker = c.breaker := by
  unfold untrack
  split <;> rfl

section Account

variable (c) (call : Call) (outcome : CallOutcome) (now : Instant)

private theorem breaker_account :
    (c.account call (now.since call.startedAt) outcome.result.isOk now).breaker =
      { (c.heard call outcome now).breaker with pending := [] } := by
  unfold account
  dsimp only
  rw [← heard]
  exact (breaker_untrack _ _).trans (breaker_publishTransitions _)

theorem history_account :
    (c.account call (now.since call.startedAt) outcome.result.isOk now).events.history.toList =
      c.events.history.toList ++
        ((c.heard call outcome now).breaker.pending.map fun t =>
          .breakerTransition t.source t.target) ++
        [.completed call.request.id call.request.tier outcome.result.isOk
          (now.since call.startedAt).millisWord] := by
  unfold account
  dsimp only
  rw [← heard]
  change ((untrack _ _).events.history.push _).toList = _
  rw [Array.toList_push, events_untrack, history_publishTransitions]
  rfl

/-- The waiter makes no difference to the breaker and the events. -/
theorem finish_parts :
    (c.finish call outcome now).breaker =
      (c.account call (now.since call.startedAt) outcome.result.isOk now).breaker ∧
    TellsOfDispatches (c.account call (now.since call.startedAt) outcome.result.isOk now)
      (c.finish call outcome now) := by
  unfold finish
  dsimp only
  generalize c.account call (now.since call.startedAt) outcome.result.isOk now = a
  have htold := tellsOfDispatches_pullReady (a.dropWaiter call.request.id) now
  have hb := breaker_pullReady (a.dropWaiter call.request.id) now
  split
  · exact ⟨hb, htold⟩
  · refine ⟨?_, ?_⟩
    · rw [breaker_deliver]
      exact hb
    · rw [TellsOfDispatches, events_deliver]
      exact htold

private theorem leadsFrom_heard (hp : c.breaker.pending = []) :
    (c.heard call outcome now).breaker.LeadsFrom c.breaker.state := by
  have hl := CircuitBreaker.LeadsFrom.of_pending_nil hp
  change CircuitBreaker.LeadsFrom _ (if _ then _ else _)
  split
  · exact hl.recordSuccess
  · exact hl.recordFailure _ _

private theorem shows_finish (hp : c.breaker.pending = []) :
    c.Shows (c.heard call outcome now).breaker (c.finish call outcome now) := by
  obtain ⟨hb, ds, hds, hdispatch⟩ := finish_parts c call outcome now
  have he := history_account c call outcome now
  rw [he, List.append_assoc _ [_]] at hds
  exact shows_of_told (leadsFrom_heard c call outcome now hp)
    (hb.trans (breaker_account c call outcome now)) hds
    ((List.filterMap_cons_none rfl).trans (filterMap_dispatches hdispatch))
    (guards_cons_of rfl (guards_dispatches hdispatch))

end Account

/-! ### Every operation -/

private theorem shows_cancel (hp : c.breaker.pending = []) (id : RequestId) :
    c.Shows c.breaker (c.cancel id).2 := by
  unfold cancel
  split
  · exact shows_self hp rfl rfl
  · next q s _ =>
    dsimp only
    split
    · exact shows_of_same hp rfl Array.toList_push rfl (guards_cons_of rfl trivial)
    · refine @shows_of_same c _ [.cancelled id q.tier] hp ?_ ?_ rfl
        (guards_cons_of rfl trivial)
      · rw [breaker_deliver]
        rfl
      · rw [events_deliver]
        exact Array.toList_push

def breakerAfter (c : Controller) : Operation → CircuitBreaker
  | .submit q now => c.breakerAsked q now
  | .endCall id outcome now =>
    match c.running.find? fun call => call.request.id == id with
    | none => c.breaker
    | some call => (c.heard call outcome now).breaker
  | .beginCall _ _ | .cancel _ | .abandon _ | .drain _ | .passTime _ => c.breaker

theorem Tracked.shows_apply (h : c.Tracked) (hp : c.breaker.pending = []) (op : Operation) :
    c.Shows (c.breakerAfter op) (c.apply op) := by
  cases op with
  | submit q now => exact h.shows_submit hp q now
  | beginCall position now =>
    rw [Controller.apply]
    cases hb : c.beginAt? position now with
    | none => exact shows_self hp rfl rfl
    | some p =>
      obtain ⟨call, c'⟩ := p
      obtain ⟨d, -, -, rfl⟩ := beginAt?_eq_some hb
      exact shows_self hp rfl rfl
  | endCall id outcome now =>
    rw [breakerAfter, Controller.apply, finishRunning?]
    cases c.running.find? fun call => call.request.id == id with
    | none => exact shows_self hp rfl rfl
    | some call => exact shows_finish c call outcome now hp
  | cancel id => exact shows_cancel hp id
  | abandon id =>
    rw [Controller.apply, abandon]
    split <;> exact shows_self hp rfl rfl
  | drain limit => exact shows_self hp rfl rfl
  | passTime d =>
    rw [Controller.apply, passTime?]
    cases c.gate.pass? d <;> exact shows_self hp rfl rfl

/-! ### Failures -/

/-- The instant at which a backend call ended without success. -/
def failure? (c : Controller) : Operation → Option Instant
  | .endCall id outcome now =>
    if c.does (.endCall id outcome now) && !outcome.result.isOk then some now else none
  | .submit _ _ | .beginCall _ _ | .cancel _ | .abandon _ | .drain _ | .passTime _ => none

/-- The instants of the failed completions of a run, first to last. -/
def failures : Controller → List Operation → List Instant
  | _, [] => []
  | c, op :: ops => (c.failure? op).toList ++ (c.apply op).failures ops

private theorem does_endCall (c : Controller) (id : RequestId) (outcome : CallOutcome)
    (now : Instant) : c.does (.endCall id outcome now) =
      (c.running.find? fun call => call.request.id == id).isSome := by
  rw [Bool.eq_iff_iff, does, List.any_eq_true, List.find?_isSome]

/-- How an operation changes a breaker: its settings stay, its last failure is the last one that
there was, and only a failure opens it. -/
structure Continues (b : CircuitBreaker) (failed : Option Instant) (b' : CircuitBreaker) : Prop where
  config : b'.config = b.config
  lastFailure : b'.lastFailure = failed.or b.lastFailure
  opened : b'.state = .opened → b.state = .opened ∨ failed.isSome = true

theorem Continues.refl (b : CircuitBreaker) : Continues b none b := ⟨rfl, rfl, Or.inl⟩

private theorem continues_probe (b : CircuitBreaker) (now : Instant) :
    Continues b none (b.probe now) where
  config := b.config_probe now
  lastFailure := b.lastFailure_probe now
  opened := by
    intro ho
    rw [CircuitBreaker.state_probe] at ho
    split at ho
    · cases ho
    · exact Or.inl ho

private theorem continues_breakerAfter (c : Controller) (op : Operation) :
    Continues c.breaker (c.failure? op) (c.breakerAfter op) := by
  cases op with
  | submit q now =>
    change Continues c.breaker none (c.breakerAsked q now)
    unfold breakerAsked
    split
    · exact continues_probe _ _
    · exact .refl _
  | endCall id outcome now =>
    rw [breakerAfter]
    cases hfind : c.running.find? fun call => call.request.id == id with
    | none =>
      rw [failure?, does_endCall, hfind]
      exact .refl _
    | some call =>
      rw [failure?, does_endCall, hfind]
      change Continues c.breaker _ (if _ then _ else _)
      cases outcome.result.isOk with
      | true =>
        exact ⟨by simp, by simp, fun ho => Or.inl (CircuitBreaker.opened_of_recordSuccess ho)⟩
      | false => exact ⟨by simp, by simp, fun _ => Or.inr rfl⟩
  | beginCall | cancel | abandon | drain | passTime => exact .refl _

/-- An open breaker stays open until it is asked late enough. -/
theorem opened_breakerAfter (ho : c.breaker.state = .opened) (op : Operation) :
    (c.breakerAfter op).state = .opened ∨
      ∃ q now, op = .submit q now ∧ c.breaker.timeoutPassed now = true := by
  cases op with
  | submit q now =>
    by_cases hp : c.breaker.timeoutPassed now = true
    · exact Or.inr ⟨q, now, rfl, hp⟩
    · left
      change (c.breakerAsked q now).state = .opened
      unfold breakerAsked
      split
      · rw [CircuitBreaker.state_probe, if_neg fun h => hp h.2, ho]
      · exact ho
  | endCall id outcome now =>
    left
    rw [breakerAfter]
    split
    · exact ho
    · change CircuitBreaker.state (if _ then _ else _) = .opened
      split
      · exact CircuitBreaker.state_recordSuccess_of_opened ho
      · exact CircuitBreaker.state_recordFailure_of_opened ho _ _
  | beginCall | cancel | abandon | drain | passTime => exact Or.inl ho

/-! ### Runs -/

/-- What holds of the breaker and of what was told about it when `failed` is the instant of the last
failure so far. -/
structure Watched (config : AdmissionConfig) (failed : Option Instant) (c : Controller) : Prop where
  config : c.breaker.config = config.breaker
  lastFailure : c.breaker.lastFailure = failed
  opened : c.breaker.state = .opened → failed.isSome = true
  pending : c.breaker.pending = []
  told : c.events.history.toList.foldl hear .closed = c.breaker.state
  guarded : Guards .closed c.events.history.toList

theorem watched_new (config : AdmissionConfig) : (new config).Watched config none :=
  ⟨rfl, rfl, fun h => (by cases h), rfl, rfl, trivial⟩

theorem Watched.apply (h : c.Watched config failed) (hc : c.Tracked) (op : Operation) :
    (c.apply op).Watched config ((c.failure? op).or failed) := by
  obtain ⟨hb, hl, es, hes, hs, hg⟩ := hc.shows_apply h.pending op
  have hcont := continues_breakerAfter c op
  refine ⟨?_, ?_, ?_, ?_, ?_, ?_⟩
  · rw [hb]
    exact hcont.config.trans h.config
  · rw [hb, ← h.lastFailure]
    exact hcont.lastFailure
  · rw [hb]
    intro ho
    rcases hcont.opened ho with ho | hf
    · simp [h.opened ho]
    · simp [hf]
  · rw [hb]
  · rw [hes, List.foldl_append, h.told, foldl_hear, hs, hb]
    exact hl
  · rw [hes, guards_append, h.told]
    exact ⟨h.guarded, hg⟩

theorem Watched.after (h : c.Watched config failed) (hc : c.Tracked) (ops : List Operation) :
    (c.after ops).Watched config ((c.failures ops).getLast?.or failed) := by
  induction ops generalizing c failed with
  | nil => exact h
  | cons op ops ih =>
    have hlast : (c.failures (op :: ops)).getLast?.or failed =
        ((c.apply op).failures ops).getLast?.or ((c.failure? op).or failed) := by
      -- The failure of the first operation comes before those of the others.
      rw [failures, List.getLast?_append, Option.or_assoc]
      cases c.failure? op <;> rfl
    rw [hlast]
    exact ih (h.apply hc op) (hc.apply op)

theorem watched_after (config : AdmissionConfig) (ops : List Operation) :
    ((new config).after ops).Watched config ((new config).failures ops).getLast? := by
  have h := (watched_new config).after (tracked_new config) ops
  rwa [Option.or_none] at h

theorem Watched.timeoutPassed_iff (h : c.Watched config failed) (ho : c.breaker.state = .opened) :
    c.breaker.timeoutPassed now = true ↔
      ∃ t, failed = some t ∧ config.breaker.openTimeout < now.since t := by
  obtain ⟨t, rfl⟩ := Option.isSome_iff_exists.1 (h.opened ho)
  rw [CircuitBreaker.timeoutPassed_iff h.lastFailure, h.config]
  simp

theorem Watched.admits_iff (h : c.Watched config failed) {t : Tier} {rate : Float} :
    c.breaker.Admits t rate now ↔ rate ≤ config.breaker.errorThreshold.get t ∧
      (c.breaker.state = .opened →
        ∃ t, failed = some t ∧ config.breaker.openTimeout < now.since t) := by
  rw [CircuitBreaker.Admits, h.config, and_comm]
  exact and_congr_right fun _ => forall_congr' h.timeoutPassed_iff

/-- A submission with a new identifier to a running controller is admitted exactly when its tier
tolerates the error rate of the budget that it is considered with and the timeout, if the breaker
was open, has passed since the last failed completion of the run. Otherwise its caller is told the
tier, that rate and the state in which the check left the breaker. Nothing else takes the breaker
out of the open state, and no admission is ever announced between a change to that state and the
change from it. -/
theorem breaker_gates_admission (config : AdmissionConfig) (ops : List Operation) :
    let c := (new config).after ops
    let events := c.events.history.toList
    let elapsed (now : Instant) : Prop := ∃ failed,
      ((new config).failures ops).getLast? = some failed ∧
        config.breaker.openTimeout < now.since failed
    (∀ q now, c.gate.phase = .running → c.scheduler.contains q.id = false →
      let rate := ((c.receive now).budget now).errorRate
      let c' := c.submit q now
      let passes : Prop := rate ≤ config.breaker.errorThreshold.get q.tier ∧
        (c.breaker.state = .opened → elapsed now)
      ((∃ path, .admitted q.id q.tier path ∈ c.news c') ↔ passes) ∧
      (¬ passes → c'.resolutions = c.resolutions.push
        ⟨c.statistics.counters.total, q.id,
          .error (.breakerOpen q.tier c'.breaker.state rate)⟩) ∧
      (c.breaker.state = .opened ∧ elapsed now → c'.breaker.state = .halfOpen) ∧
      (¬ (c.breaker.state = .opened ∧ elapsed now) → c'.breaker.state = c.breaker.state)) ∧
    (∀ op, c.breaker.state = .opened → (c.apply op).breaker.state = .opened ∨
      ∃ q now, op = .submit q now ∧ elapsed now) ∧
    events.foldl hear .closed = c.breaker.state ∧
    ∀ before id t path after, events = before ++ .admitted id t path :: after →
      before.foldl hear .closed ≠ .opened := by
  intro c events elapsed
  have h : c.Tracked := tracked_after config ops
  have hw : c.Watched config ((new config).failures ops).getLast? := by
    have hafter := (watched_new config).after (tracked_new config) ops
    rwa [Option.or_none] at hafter
  refine ⟨fun q now hrun hnew => ?_, fun op ho => ?_, hw.told, ?_⟩
  · intro rate c' passes
    have hrun' : (c.receive now).gate.phase = .running := by rw [gate_receive, hrun]
    have hnew' := (h.contains_receive now q.id).trans hnew
    obtain ⟨path, hj⟩ := judged_submit (q := q) (h.receive now).scheduler
    have hpath : path.isSome = true ↔ passes := by
      rw [hj.isSome_iff hrun' hnew', breaker_receive]
      exact hw.admits_iff
    have hstate : c'.breaker.state = (c.breaker.probe now).state := by
      rw [(h.shows_submit hw.pending q now).breaker, breakerAsked, if_pos ⟨hrun, hnew⟩]
    rw [CircuitBreaker.state_probe] at hstate
    refine ⟨?_, fun hno => ?_, fun hopen => ?_, fun hopen => ?_⟩
    · exact (exists_congr hj.admitted_mem_news_iff).trans (Option.isSome_iff_exists.symm.trans hpath)
    · rw [← hpath, Bool.not_eq_true, Option.isSome_eq_false_iff, Option.isNone_iff_eq_none] at hno
      subst hno
      have hrefusal := (hj.refusal hrun' hnew').2
      rwa [resolutions_receive] at hrefusal
    · rw [hstate, if_pos ⟨hopen.1, (hw.timeoutPassed_iff hopen.1).2 hopen.2⟩]
    · rw [hstate, if_neg fun hp => hopen ⟨hp.1, (hw.timeoutPassed_iff hp.1).1 hp.2⟩]
  · rw [(h.shows_apply hw.pending op).breaker]
    refine (opened_breakerAfter ho op).imp_right ?_
    rintro ⟨q, now, rfl, hp⟩
    exact ⟨q, now, rfl, (hw.timeoutPassed_iff ho).1 hp⟩
  · intro before id t path after hevents
    have hg : Guards .closed events := hw.guarded
    rw [hevents, guards_append] at hg
    exact hg.2.1 rfl

end Controller

end TieredAdmission

import TieredAdmission.Admission.Controller
import TieredAdmission.Proofs.Breaker
import TieredAdmission.Proofs.Drain
import TieredAdmission.Proofs.Scheduler.Selection
import TieredAdmission.Proofs.Capacity.Samples

/-!
# Runs of the controller

A run is a list of operations. Each brings the instant at which it reads the clock, so that the
clock may move in any way between two of them, and a call may begin and end at any place among the
others. What the operations share is worked out here: the steps that leave the work in hand as it
is, the loop that dispatches queued requests with its induction principle, and the ways in which a
submission is decided.
-/

namespace TieredAdmission

/-- An operation, with the instant at which it reads the clock. -/
inductive Operation where
  | submit (request : Request) (now : Instant)
  /-- The backend call of the pending dispatch at a position begins. -/
  | beginCall (position : Nat) (now : Instant)
  | endCall (id : RequestId) (outcome : CallOutcome) (now : Instant)
  | cancel (id : RequestId)
  /-- The caller of a request stops waiting. -/
  | abandon (id : RequestId)
  | drain (limit : Option Duration)
  /-- Time passes for the limits of drains. -/
  | passTime (d : Duration)

def AdmissionEvent.isDispatch : AdmissionEvent → Bool
  | .dispatched _ _ _ => true
  | _ => false

def AdmissionEvent.isAdmission : AdmissionEvent → Bool
  | .admitted _ _ _ => true
  | _ => false

theorem AdmissionEvent.isAdmission_of_isDispatch {e : AdmissionEvent} (h : e.isDispatch = true) :
    e.isAdmission = false := by
  cases e with
  | dispatched => rfl
  | admitted | completed | rejected | cancelled | breakerTransition => cases h

/-- What no dispatch changes, a list of dispatches does not. -/
theorem AdmissionEvent.foldl_dispatches {α : Type} {f : α → AdmissionEvent → α}
    (hf : ∀ a id tier ms, f a (.dispatched id tier ms) = a) {es : List AdmissionEvent}
    (h : ∀ e ∈ es, e.isDispatch = true) (a : α) : es.foldl f a = a := by
  induction es with
  | nil => rfl
  | cons e es ih =>
    have he := h e List.mem_cons_self
    cases e with
    | dispatched =>
      rw [List.foldl_cons, hf]
      exact ih fun e he => h e (List.mem_cons_of_mem _ he)
    | admitted | completed | rejected | cancelled | breakerTransition => cases he

namespace Controller

/-- The controller after an operation; one that cannot be done changes nothing. -/
def apply (c : Controller) : Operation → Controller
  | .submit request now => c.submit request now
  | .beginCall position now => ((c.beginAt? position now).map Prod.snd).getD c
  | .endCall id outcome now => (c.finishRunning? id outcome now).getD c
  | .cancel id => (c.cancel id).2
  | .abandon id => (c.abandon id).2
  | .drain limit => c.drain limit
  | .passTime d => (c.passTime? d).getD c

def does (c : Controller) : Operation → Bool
  | .submit _ _ | .drain _ => true
  | .beginCall position _ => decide (position < c.pending.length)
  | .endCall id _ _ => c.running.any fun call => call.request.id == id
  | .cancel id => (c.cancel id).1
  | .abandon id => (c.abandon id).1
  | .passTime d => (c.passTime? d).isSome

def after (c : Controller) (ops : List Operation) : Controller := ops.foldl apply c

/-- The events published between two states. -/
def news (c c' : Controller) : List AdmissionEvent :=
  c'.events.history.toList.drop c.events.history.toList.length

theorem news_eq {c c' : Controller} {es : List AdmissionEvent}
    (h : c'.events.history.toList = c.events.history.toList ++ es) : c.news c' = es := by
  rw [news, h, List.drop_left]

@[simp] theorem after_cons (c : Controller) (op : Operation) (ops : List Operation) :
    c.after (op :: ops) = (c.apply op).after ops := rfl

@[simp] theorem after_append (c : Controller) (ops more : List Operation) :
    c.after (ops ++ more) = (c.after ops).after more := List.foldl_append ..

/-- What every operation keeps, every run keeps. -/
theorem after_induction {P : Controller → Prop} (step : ∀ c op, P c → P (c.apply op))
    {c : Controller} (h : P c) (ops : List Operation) : P (c.after ops) := by
  induction ops generalizing c with
  | nil => exact h
  | cons op ops ih => exact ih (step c op h)

/-- A call that begins was a pending dispatch, and is a running one from then on. -/
theorem beginAt?_eq_some {c c' : Controller} {position : Nat} {now : Instant} {call : Call}
    (h : c.beginAt? position now = some (call, c')) :
    ∃ d, c.pending[position]? = some d ∧ call = ⟨d.request, d.waited, now⟩ ∧
      c' = { c with
        pending := c.pending.eraseIdx position
        running := c.running ++ [call]
        begun := c.begun.push call } := by
  unfold beginAt? at h
  split at h
  · cases h
  · next d hd =>
    cases h
    exact ⟨d, hd, rfl, rfl⟩

/-! ### Steps that leave the work in hand as it is -/

/-- The controllers differ at most in the breaker, in what is told to observers and in the level
last made known. -/
structure SameWork (c c' : Controller) : Prop where
  scheduler : c'.scheduler = c.scheduler
  samples : c'.estimator.samples = c.estimator.samples
  outcomes : c'.estimator.outcomes = c.estimator.outcomes
  config : c'.estimator.config = c.estimator.config
  statistics : c'.statistics = c.statistics
  gate : c'.gate = c.gate
  waiters : c'.waiters = c.waiters
  pending : c'.pending = c.pending
  running : c'.running = c.running
  begun : c'.begun = c.begun
  resolutions : c'.resolutions = c.resolutions
  faults : c'.faults = c.faults

variable {c c' c'' : Controller} {now : Instant}

theorem SameWork.refl (c : Controller) : c.SameWork c :=
  ⟨rfl, rfl, rfl, rfl, rfl, rfl, rfl, rfl, rfl, rfl, rfl, rfl⟩

theorem SameWork.trans (h : c.SameWork c') (h' : c'.SameWork c'') : c.SameWork c'' where
  scheduler := h'.scheduler.trans h.scheduler
  samples := h'.samples.trans h.samples
  outcomes := h'.outcomes.trans h.outcomes
  config := h'.config.trans h.config
  statistics := h'.statistics.trans h.statistics
  gate := h'.gate.trans h.gate
  waiters := h'.waiters.trans h.waiters
  pending := h'.pending.trans h.pending
  running := h'.running.trans h.running
  begun := h'.begun.trans h.begun
  resolutions := h'.resolutions.trans h.resolutions
  faults := h'.faults.trans h.faults

theorem SameWork.budget (h : c.SameWork c') (now : Instant) : c'.budget now = c.budget now := by
  have hstats : c'.estimator.windowStats now = c.estimator.windowStats now := by
    funext window
    simp only [Estimator.windowStats, Estimator.responseTimes, h.samples, h.outcomes]
  simp only [Controller.budget, Estimator.currentBudget, h.scheduler, h.config, hstats]

theorem SameWork.openSamples (h : c.SameWork c') :
    c'.estimator.openSamples = c.estimator.openSamples := by
  rw [Estimator.openSamples, Estimator.openSamples, h.samples]

theorem sameWork_recordQueueDepths (c : Controller) : c.SameWork c.recordQueueDepths :=
  ⟨rfl, rfl, rfl, rfl, rfl, rfl, rfl, rfl, rfl, rfl, rfl, rfl⟩

theorem sameWork_refresh (c : Controller) (now : Instant) : c.SameWork (c.refresh now).2 := by
  have h : (c.estimator.refreshBudget c.telemetry now c.scheduler.processing.total).2.1.samples =
        c.estimator.samples ∧
      (c.estimator.refreshBudget c.telemetry now c.scheduler.processing.total).2.1.outcomes =
        c.estimator.outcomes ∧
      (c.estimator.refreshBudget c.telemetry now c.scheduler.processing.total).2.1.config =
        c.estimator.config := by
    unfold Estimator.refreshBudget
    dsimp only
    split <;> exact ⟨rfl, rfl, rfl⟩
  exact ⟨rfl, h.1, h.2.1, h.2.2, rfl, rfl, rfl, rfl, rfl, rfl, rfl, rfl⟩

theorem sameWork_publishTransitions (c : Controller) : c.SameWork c.publishTransitions := by
  have h (ts : List BreakerTransition) (c : Controller) :
      c.SameWork (ts.foldl publishTransition c) := by
    induction ts generalizing c with
    | nil => exact .refl c
    | cons t ts ih =>
      refine SameWork.trans ?_ (ih _)
      exact ⟨rfl, rfl, rfl, rfl, rfl, rfl, rfl, rfl, rfl, rfl, rfl, rfl⟩
  refine SameWork.trans ?_ (h _ _)
  exact ⟨rfl, rfl, rfl, rfl, rfl, rfl, rfl, rfl, rfl, rfl, rfl, rfl⟩

theorem sameWork_consult (c : Controller) (t : Tier) (now : Instant) :
    c.SameWork (c.consult t now).2 := by
  refine (sameWork_refresh c now).trans (SameWork.trans ?_ (sameWork_publishTransitions _))
  exact ⟨rfl, rfl, rfl, rfl, rfl, rfl, rfl, rfl, rfl, rfl, rfl, rfl⟩

/-! ### The loop that dispatches queued requests -/

/-- One round of the loop, on the controller whose budget has been made known. -/
theorem pull_succ (now : Instant) (fuel : Nat) (c : Controller) :
    pull now (fuel + 1) c =
      match (c.refresh now).2.scheduler.selectNext ((c.refresh now).2.budget now) now with
      | none => (c.refresh now).2
      | some next =>
        match (c.refresh now).2.scheduler.start next.id now with
        | .error e => (c.refresh now).2.fault (.notDispatched next.id e)
        | .ok (dispatch, scheduler) =>
          pull now fuel ((c.refresh now).2.launch next dispatch scheduler now) := by
  have hb : (c.refresh now).1 = (c.refresh now).2.budget now := by
    rw [refresh_fst, (sameWork_refresh c now).budget]
  exact hb ▸ rfl

/-- What the loop keeps: what is kept by steps that leave the work as it is and publish nothing, and
when a selected request leaves for the backend. -/
structure PullKeeps (now : Instant) (P : Controller → Prop) : Prop where
  wellFormed : ∀ c, P c → c.scheduler.WellFormed
  quiet : ∀ c c', c.SameWork c' → c'.events = c.events → P c → P c'
  launch : ∀ c next d s, P c → c.scheduler.selectNext (c.budget now) now = some next →
    c.scheduler.start next.id now = .ok (d, s) → P (c.launch next d s now)

variable {P : Controller → Prop}

/-- On a well-formed scheduler the selected request can always be started. -/
theorem PullKeeps.pull (h : PullKeeps now P) (fuel : Nat) {c : Controller} (hc : P c) :
    P (pull now fuel c) := by
  induction fuel generalizing c with
  | zero => exact hc
  | succ fuel ih =>
    have hc' := h.quiet _ _ (sameWork_refresh c now) rfl hc
    rw [pull_succ]
    split
    · exact hc'
    · next next hnext =>
      obtain ⟨-, -, e, hf, hq, -⟩ := (h.wellFormed _ hc').selectNext_some hnext
      obtain ⟨s, hs⟩ := Scheduler.exists_start now hf hq
      rw [hs]
      exact ih (h.launch _ _ _ _ hc' hnext hs)

theorem PullKeeps.pullReady (h : PullKeeps now P) (hc : P c) : P (c.pullReady now) :=
  h.quiet _ _ (sameWork_recordQueueDepths _) rfl (h.pull _ hc)

/-- The free slots that queued requests get before a newcomer are given by the same loop. -/
theorem PullKeeps.receive (h : PullKeeps now P)
    (hc : P { c with statistics := c.statistics.recordSubmission }) : P (c.receive now) := by
  unfold Controller.receive
  dsimp only
  split
  · exact h.pullReady hc
  · exact hc

/-- The loop stops when nothing is selected any more. -/
theorem selectNext_pull {fuel : Nat} (h : c.scheduler.WellFormed)
    (hfuel : c.scheduler.queued.total < fuel) :
    (pull now fuel c).scheduler.selectNext ((pull now fuel c).budget now) now = none := by
  induction fuel generalizing c with
  | zero => omega
  | succ fuel ih =>
    have hwf : (c.refresh now).2.scheduler.WellFormed := h
    rw [pull_succ]
    split
    · next hnone => exact hnone
    · next next hnext =>
      obtain ⟨-, -, e, hf, hq, -⟩ := hwf.selectNext_some hnext
      obtain ⟨s, hs⟩ := Scheduler.exists_start now hf hq
      rw [hs]
      -- The queue is shorter than before.
      obtain ⟨f, hf', hq', -, hwf', hr, -⟩ := hwf.start_ok hs
      have hlt := (hwf.roster.total_started now hf' hq').1
      refine ih hwf' ?_
      change s.roster.queued.total < fuel
      rw [hr]
      change c.scheduler.roster.queued.total < fuel + 1 at hfuel
      simp only [scheduler_refresh] at hlt ⊢
      omega

theorem selectNext_pullReady (h : c.scheduler.WellFormed) (now : Instant) :
    (c.pullReady now).scheduler.selectNext ((c.pullReady now).budget now) now = none :=
  selectNext_pull h (Nat.lt_succ_self _)

section Untouched

/-- The loop leaves alone what none of its steps touches. -/
theorem pullReady_keeps {α : Type} (f : Controller → α) (c : Controller)
    (refresh : ∀ c, f (c.refresh now).2 = f c)
    (launch : ∀ c next d s, f (c.launch next d s now) = f c)
    (fault : ∀ c φ, f (c.fault φ) = f c) (depths : ∀ c, f c.recordQueueDepths = f c) :
    f (c.pullReady now) = f c := by
  have hpull (fuel : Nat) (c : Controller) : f (pull now fuel c) = f c := by
    induction fuel generalizing c with
    | zero => rfl
    | succ fuel ih =>
      rw [pull_succ]
      split
      · exact refresh c
      · split
        · rw [fault, refresh]
        · rw [ih, launch, refresh]
  exact (depths _).trans (hpull _ c)

/-- A change that no step of the loop sees can be made after the loop as well. -/
theorem pullReady_comm (f : Controller → Controller) (c : Controller)
    (scheduler : ∀ c, (f c).scheduler = c.scheduler) (budget : ∀ c, (f c).budget now = c.budget now)
    (refresh : ∀ c, ((f c).refresh now).2 = f (c.refresh now).2)
    (launch : ∀ c next d s, (f c).launch next d s now = f (c.launch next d s now))
    (fault : ∀ c φ, (f c).fault φ = f (c.fault φ))
    (depths : ∀ c, (f c).recordQueueDepths = f c.recordQueueDepths) :
    (f c).pullReady now = f (c.pullReady now) := by
  have hpull (fuel : Nat) (c : Controller) : pull now fuel (f c) = f (pull now fuel c) := by
    induction fuel generalizing c with
    | zero => rfl
    | succ fuel ih =>
      rw [pull_succ, pull_succ, refresh, scheduler, budget]
      cases (c.refresh now).2.scheduler.selectNext ((c.refresh now).2.budget now) now with
      | none => rfl
      | some next =>
        dsimp only
        cases (c.refresh now).2.scheduler.start next.id now with
        | error e => exact fault _ _
        | ok p =>
          change pull now fuel ((f (c.refresh now).2).launch next p.1 p.2 now) = _
          rw [launch, ih]
  rw [pullReady, pullReady, scheduler, hpull, depths]

variable (c) (now)

@[simp] theorem waiters_pullReady : (c.pullReady now).waiters = c.waiters :=
  pullReady_keeps waiters c (fun _ => rfl) (fun _ _ _ _ => rfl) (fun _ _ => rfl) fun _ => rfl

@[simp] theorem gate_pullReady : (c.pullReady now).gate = c.gate :=
  pullReady_keeps gate c (fun _ => rfl) (fun _ _ _ _ => rfl) (fun _ _ => rfl) fun _ => rfl

@[simp] theorem statistics_pullReady : (c.pullReady now).statistics = c.statistics :=
  pullReady_keeps statistics c (fun _ => rfl) (fun _ _ _ _ => rfl) (fun _ _ => rfl) fun _ => rfl

@[simp] theorem resolutions_pullReady : (c.pullReady now).resolutions = c.resolutions :=
  pullReady_keeps resolutions c (fun _ => rfl) (fun _ _ _ _ => rfl) (fun _ _ => rfl) fun _ => rfl

@[simp] theorem breaker_pullReady : (c.pullReady now).breaker = c.breaker :=
  pullReady_keeps breaker c (fun _ => rfl) (fun _ _ _ _ => rfl) (fun _ _ => rfl) fun _ => rfl

/-- Before a newcomer is considered, its submission is counted and the loop runs if need be. -/
theorem receive_keeps {α : Type} (f : Controller → α) (pull : ∀ c, f (c.pullReady now) = f c) :
    f (c.receive now) = f { c with statistics := c.statistics.recordSubmission } := by
  unfold receive
  dsimp only
  split
  · exact pull _
  · rfl

@[simp] theorem gate_receive : (c.receive now).gate = c.gate :=
  receive_keeps c now gate fun c => gate_pullReady c now

@[simp] theorem statistics_receive :
    (c.receive now).statistics = c.statistics.recordSubmission :=
  receive_keeps c now statistics fun c => statistics_pullReady c now

@[simp] theorem resolutions_receive : (c.receive now).resolutions = c.resolutions :=
  receive_keeps c now resolutions fun c => resolutions_pullReady c now

@[simp] theorem breaker_receive : (c.receive now).breaker = c.breaker :=
  receive_keeps c now breaker fun c => breaker_pullReady c now

end Untouched

/-! ### What the loop tells -/

/-- Nothing but dispatches was published in between. -/
def TellsOfDispatches (c c' : Controller) : Prop :=
  ∃ es, c'.events.history.toList = c.events.history.toList ++ es ∧
    ∀ e ∈ es, e.isDispatch = true

theorem tellsOfDispatches_of_events (h : c'.events = c.events) : c.TellsOfDispatches c' :=
  ⟨[], by simp [h]⟩

theorem TellsOfDispatches.trans (h : c.TellsOfDispatches c') (h' : c'.TellsOfDispatches c'') :
    c.TellsOfDispatches c'' := by
  obtain ⟨es, hes, hdispatch⟩ := h
  obtain ⟨fs, hfs, hdispatch'⟩ := h'
  refine ⟨es ++ fs, by rw [hfs, hes, List.append_assoc], fun e he => ?_⟩
  exact (List.mem_append.1 he).elim (hdispatch e) (hdispatch' e)

theorem tellsOfDispatches_pullReady (c : Controller) (now : Instant) :
    c.TellsOfDispatches (c.pullReady now) := by
  have hpull (fuel : Nat) (c : Controller) : c.TellsOfDispatches (pull now fuel c) := by
    induction fuel generalizing c with
    | zero => exact tellsOfDispatches_of_events rfl
    | succ fuel ih =>
      rw [pull_succ]
      split
      · exact tellsOfDispatches_of_events rfl
      · next next _ =>
        split
        · exact tellsOfDispatches_of_events rfl
        · next d s _ =>
          refine TellsOfDispatches.trans ?_ (ih _)
          exact ⟨[.dispatched next.id next.tier d.waited.millisWord], Array.toList_push,
            by simp [AdmissionEvent.isDispatch]⟩
  exact (hpull _ _).trans (tellsOfDispatches_of_events rfl)

theorem tellsOfDispatches_receive (c : Controller) (now : Instant) :
    c.TellsOfDispatches (c.receive now) := by
  unfold receive
  dsimp only
  split
  · exact tellsOfDispatches_pullReady { c with statistics := c.statistics.recordSubmission } now
  · exact tellsOfDispatches_of_events rfl

/-! ### How a submission is decided -/

/-- Nothing but changes of the breaker was published in between. -/
def TellsOfBreaker (c c' : Controller) : Prop :=
  ∃ ts : List BreakerTransition, c'.events.history.toList =
    c.events.history.toList ++ ts.map fun t => .breakerTransition t.source t.target

theorem TellsOfBreaker.refl (c : Controller) : c.TellsOfBreaker c := ⟨[], by simp⟩

theorem history_publishTransitions (c : Controller) :
    c.publishTransitions.events.history.toList =
      c.events.history.toList ++
        c.breaker.pending.map fun t => .breakerTransition t.source t.target := by
  have h (ts : List BreakerTransition) (c : Controller) :
      (ts.foldl publishTransition c).events.history.toList =
        c.events.history.toList ++ ts.map fun t => .breakerTransition t.source t.target := by
    induction ts generalizing c with
    | nil => simp
    | cons t ts ih =>
      rw [List.foldl_cons, ih]
      simp [publishTransition, publish]
  exact h _ _

theorem tellsOfBreaker_publishTransitions (c : Controller) :
    c.TellsOfBreaker c.publishTransitions := ⟨_, history_publishTransitions c⟩

@[simp] theorem breaker_publishTransitions (c : Controller) :
    c.publishTransitions.breaker = { c.breaker with pending := [] } := by
  have h (ts : List BreakerTransition) (c : Controller) :
      (ts.foldl publishTransition c).breaker = c.breaker := by
    induction ts generalizing c with
    | nil => rfl
    | cons t ts ih => exact ih _
  exact h _ _

/-- The breaker has been asked, and its changes have been told. -/
structure Consulted (c : Controller) (now : Instant) (c' : Controller) : Prop
    extends c.SameWork c' where
  breaker : c'.breaker = { c.breaker.probe now with pending := [] }
  told : c'.events.history.toList = c.events.history.toList ++
    (c.breaker.probe now).pending.map fun t => .breakerTransition t.source t.target

private theorem consulted_consult (c : Controller) (t : Tier) (now : Instant) :
    c.Consulted now (c.consult t now).2 where
  toSameWork := sameWork_consult c t now
  breaker := breaker_publishTransitions _
  told := history_publishTransitions _

theorem Consulted.tellsOfBreaker (h : c.Consulted now c') : c.TellsOfBreaker c' := ⟨_, h.told⟩

section Told

variable {n : Nat} {q : Request} {g : DrainGate} {s : Scheduler}

theorem history_reject (error : AdmissionError) :
    (c.reject n q error).events.history.toList =
      c.events.history.toList ++ [.rejected q.id q.tier error.message] := Array.toList_push

theorem history_dispatched {d : Dispatch} :
    ((c.register n q .immediate s g).depart q d 0 now).events.history.toList =
      c.events.history.toList ++ [.admitted q.id q.tier .immediate, .dispatched q.id q.tier 0] := by
  simp [register, depart, publish]

theorem history_queued :
    (c.register n q .queued s g).events.history.toList =
      c.events.history.toList ++ [.admitted q.id q.tier .queued] := Array.toList_push

end Told

/-- What becomes of submission `n`, the request `q`, at the controller `c`. It is rejected, or goes
to the backend at once because there is a slot for it, or is queued. -/
inductive Decided (c : Controller) (n : Nat) (q : Request) (now : Instant) : Controller → Prop where
  | rejected {c' : Controller} {error : AdmissionError} (same : c.SameWork c')
      (told : c.TellsOfBreaker c') (rejection : error.isRejection = true) :
      Decided c n q now (c'.reject n q error)
  | immediate {c' : Controller} {g : DrainGate} {s : Scheduler} (same : c.SameWork c')
      (told : c.TellsOfBreaker c') (gate : c.gate.track? = some g)
      (new : c.scheduler.contains q.id = false) (room : 0 < (c.budget now).available)
      (grants : c.scheduler.Grants q.tier) (wellFormed : s.WellFormed)
      (roster : s.roster = c.scheduler.roster.addProcessing q now)
      (limits : s.limits? = c.scheduler.limits?) :
      Decided c n q now
        (((c'.register n q .immediate s g).depart q ⟨q, .zero⟩ 0 now).pullReady now)
  | queued {c' : Controller} {g : DrainGate} {s : Scheduler} (same : c.SameWork c')
      (told : c.TellsOfBreaker c') (gate : c.gate.track? = some g)
      (new : c.scheduler.contains q.id = false) (wellFormed : s.WellFormed)
      (roster : s.roster = c.scheduler.roster.addQueued q now)
      (limits : s.limits? = c.scheduler.limits?) :
      Decided c n q now ((c'.register n q .queued s g).pullReady now)

/-- What is decided on submission `n`, the request `q`, at the controller `c`, and for which reason:
the path on which it is admitted, if it is. -/
inductive Judged (c : Controller) (n : Nat) (q : Request) (now : Instant) :
    Option DispatchPath → Controller → Prop where
  | closed (gate : c.gate.phase ≠ .running) : Judged c n q now none (c.reject n q .shuttingDown)
  | duplicate (gate : c.gate.phase = .running) (tracked : c.scheduler.contains q.id = true) :
      Judged c n q now none (c.reject n q (.duplicateRequest q.id))
  | refused {c' : Controller} (asked : c.Consulted now c') (gate : c.gate.phase = .running)
      (new : c.scheduler.contains q.id = false)
      (refuses : ¬ c.breaker.Admits q.tier (c.budget now).errorRate now) :
      Judged c n q now none
        (c'.reject n q (.breakerOpen q.tier c'.breaker.state (c.budget now).errorRate))
  | immediate {c' : Controller} {g : DrainGate} {s : Scheduler} (asked : c.Consulted now c')
      (gate : c.gate.track? = some g) (new : c.scheduler.contains q.id = false)
      (admits : c.breaker.Admits q.tier (c.budget now).errorRate now)
      (room : 0 < (c.budget now).available) (grants : c.scheduler.Grants q.tier)
      (wellFormed : s.WellFormed) (roster : s.roster = c.scheduler.roster.addProcessing q now)
      (limits : s.limits? = c.scheduler.limits?) :
      Judged c n q now (some .immediate)
        (((c'.register n q .immediate s g).depart q ⟨q, .zero⟩ 0 now).pullReady now)
  | queued {c' : Controller} {g : DrainGate} {s : Scheduler} (asked : c.Consulted now c')
      (gate : c.gate.track? = some g) (new : c.scheduler.contains q.id = false)
      (admits : c.breaker.Admits q.tier (c.budget now).errorRate now)
      (full : (c.budget now).available = 0 ∨ ¬ c.scheduler.Grants q.tier)
      (wellFormed : s.WellFormed) (roster : s.roster = c.scheduler.roster.addQueued q now)
      (limits : s.limits? = c.scheduler.limits?) :
      Judged c n q now (some .queued) ((c'.register n q .queued s g).pullReady now)

/-- On a well-formed scheduler the duplicate check leaves no other way. -/
theorem judged_submit {q : Request} (h : (c.receive now).scheduler.WellFormed) :
    ∃ path, Judged (c.receive now) c.statistics.counters.total q now path (c.submit q now) := by
  generalize hr : c.receive now = r at h
  unfold submit
  simp only [hr]
  split
  · next hg =>
    refine ⟨none, .closed fun hrun => ?_⟩
    simp [DrainGate.track?, hrun] at hg
  · next g hg =>
    have hrun : r.gate.phase = .running := (DrainGate.track?_eq_some_iff.1 hg).1
    split
    · next hdup => exact ⟨none, .duplicate hrun hdup⟩
    · next hnew =>
      replace hnew : r.scheduler.contains q.id = false := by simpa using hnew
      have asked := consulted_consult r q.tier now
      have hallowed : (r.consult q.tier now).1 = true ↔
          r.breaker.Admits q.tier (r.budget now).errorRate now := by
        rw [← refresh_fst, ← CircuitBreaker.canProcess_iff]
        rfl
      unfold decideOn
      dsimp only
      generalize r.consult q.tier now = p at asked hallowed
      split
      · next hno =>
        exact ⟨none, .refused asked hrun hnew fun h => by simp [hallowed.2 h] at hno⟩
      · next hyes =>
        have admits := hallowed.1 (by simpa using hyes)
        split
        · next hroom =>
          rw [asked.scheduler, Scheduler.canDispatchNow_iff] at hroom
          obtain ⟨s, hs, hwf, hroster, hlimits⟩ := h.beginProcessing now hnew
          rw [← asked.scheduler] at hs
          simp only [dispatchNow, hs]
          exact ⟨_, .immediate asked hg hnew admits hroom.1 hroom.2 hwf hroster hlimits⟩
        · next hfull =>
          rw [asked.scheduler, Scheduler.canDispatchNow_iff, not_and_or, Nat.pos_iff_ne_zero,
            not_not] at hfull
          obtain ⟨s, hs, hwf, hroster, hlimits⟩ := h.enqueue now hnew
          rw [← asked.scheduler] at hs
          simp only [enqueue, hs]
          exact ⟨_, .queued asked hg hnew admits hfull hwf hroster hlimits⟩

theorem Judged.decided {n : Nat} {q : Request} {path : Option DispatchPath}
    (h : Judged c n q now path c') : Decided c n q now c' := by
  cases h with
  | closed _ | duplicate _ _ => exact .rejected (.refl c) (.refl c) rfl
  | refused asked _ _ _ => exact .rejected asked.toSameWork asked.tellsOfBreaker rfl
  | immediate asked gate new _ room grants wellFormed roster limits =>
    exact .immediate asked.toSameWork asked.tellsOfBreaker gate new room grants wellFormed roster
      limits
  | queued asked gate new _ _ wellFormed roster limits =>
    exact .queued asked.toSameWork asked.tellsOfBreaker gate new wellFormed roster limits

/-- A submission that is not admitted announces no admission. -/
theorem Judged.told_none {n : Nat} {q : Request} (h : Judged c n q now none c') :
    ∃ es, c'.events.history.toList = c.events.history.toList ++ es ∧
      ∀ e ∈ es, e.isAdmission = false := by
  cases h with
  | closed _ | duplicate _ _ => exact ⟨_, history_reject _, by simp [AdmissionEvent.isAdmission]⟩
  | refused asked _ _ _ =>
    refine ⟨_, by rw [history_reject, asked.told, List.append_assoc], fun e he => ?_⟩
    rcases List.mem_append.1 he with he | he
    · obtain ⟨t, -, rfl⟩ := List.mem_map.1 he
      rfl
    · rw [List.mem_singleton.1 he]
      rfl

/-- One that is admitted announces its admission, after the changes of the breaker and before the
dispatches. -/
theorem Judged.told_some {n : Nat} {q : Request} {path : DispatchPath}
    (h : Judged c n q now (some path) c') :
    ∃ es, c'.events.history.toList = c.events.history.toList ++
        ((c.breaker.probe now).pending.map fun t => .breakerTransition t.source t.target) ++
          .admitted q.id q.tier path :: es ∧ ∀ e ∈ es, e.isDispatch = true := by
  cases h with
  | @immediate c₁ g s asked _ _ _ _ _ _ _ _ =>
    obtain ⟨es, hes, hdispatch⟩ := tellsOfDispatches_pullReady
      ((c₁.register n q .immediate s g).depart q ⟨q, .zero⟩ 0 now) now
    refine ⟨.dispatched q.id q.tier 0 :: es, ?_, ?_⟩
    · rw [hes, history_dispatched, asked.told]
      simp
    · simpa [AdmissionEvent.isDispatch] using hdispatch
  | @queued c₁ g s asked _ _ _ _ _ _ _ =>
    obtain ⟨es, hes, hdispatch⟩ := tellsOfDispatches_pullReady (c₁.register n q .queued s g) now
    refine ⟨es, ?_, hdispatch⟩
    rw [hes, history_queued, asked.told]
    simp

/-- The announcement tells on which path a submission is admitted. -/
theorem Judged.admitted_mem_news_iff {n : Nat} {q : Request} {path : Option DispatchPath}
    (h : Judged (c.receive now) n q now path c') (p : DispatchPath) :
    .admitted q.id q.tier p ∈ c.news c' ↔ path = some p := by
  have hno {es : List AdmissionEvent} (hes : ∀ e ∈ es, e.isAdmission = false) :
      AdmissionEvent.admitted q.id q.tier p ∉ es := fun hmem => by cases hes _ hmem
  obtain ⟨ds, hds, hdispatch⟩ := tellsOfDispatches_receive c now
  have hds' := hno fun e he => AdmissionEvent.isAdmission_of_isDispatch (hdispatch e he)
  cases path with
  | none =>
    obtain ⟨es, hes, hadmission⟩ := h.told_none
    rw [hds, List.append_assoc] at hes
    rw [news_eq hes]
    simp [hds', hno hadmission]
  | some path =>
    obtain ⟨es, hes, hdispatch'⟩ := h.told_some
    have hes' := hno fun e he => AdmissionEvent.isAdmission_of_isDispatch (hdispatch' e he)
    rw [hds, List.append_assoc, List.append_assoc] at hes
    rw [news_eq hes]
    simp [hds', hes', eq_comm]

theorem decided_submit {q : Request} (h : (c.receive now).scheduler.WellFormed) :
    Decided (c.receive now) c.statistics.counters.total q now (c.submit q now) := by
  obtain ⟨path, hj⟩ := judged_submit (q := q) h
  exact hj.decided

end Controller

end TieredAdmission

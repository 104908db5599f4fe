import TieredAdmission.Proofs.Admission.Frame
import TieredAdmission.Proofs.Capacity.Level

/-!
# Queues that move and drains that end

Nothing polls the queue: a queued request is dispatched only when some operation dispatches what
there is room for. It never waits in vain, because a request is processing whenever one is queued,
and every backend call that ends makes room. So with no further submission the requests in hand are
served by as many ends of calls as there are requests, in any order and with any outcomes, and then
every drain has ended.
-/

namespace TieredAdmission

/-- The operation neither brings a request nor takes a queued one away. -/
def Operation.IsOnward : Operation → Prop
  | .submit _ _ | .cancel _ => False
  | _ => True

def Operation.isEnd : Operation → Bool
  | .endCall _ _ _ => true
  | _ => false

namespace Controller

def inHand (c : Controller) : Nat := c.scheduler.queued.total + c.scheduler.processing.total

/-- The number of backend calls that end in a run. -/
def endings : Controller → List Operation → Nat
  | _, [] => 0
  | c, op :: ops => (if op.isEnd && c.does op then 1 else 0) + endings (c.apply op) ops

private theorem endings_append (c : Controller) (ops more : List Operation) :
    c.endings (ops ++ more) = c.endings ops + (c.after ops).endings more := by
  induction ops generalizing c with
  | nil => exact (Nat.zero_add _).symm
  | cons op ops ih => rw [List.cons_append, endings, endings, ih, after_cons, Nat.add_assoc]

variable {c c' : Controller} {now : Instant} {config : AdmissionConfig}

/-- Some request is processing whenever one is queued. -/
def Moving (c : Controller) : Prop :=
  0 < c.scheduler.queued.total → 0 < c.scheduler.processing.total

/-- What holds in every state that the configuration can lead to. -/
structure Live (config : AdmissionConfig) (c : Controller) : Prop extends Tracked c where
  settings : c.estimator.config = config.capacity.normalized
  moving : c.Moving
  prompt : c.gate.Prompt

theorem live_new (config : AdmissionConfig) : (new config).Live config where
  toTracked := tracked_new config
  settings := rfl
  moving := by
    intro hq
    simp [new, Scheduler.queued, Scheduler.roster_new, PerTier.const, PerTier.total] at hq
  prompt := fun _ => rfl

/-! ### The queue moves -/

/-- When the loop is done, a queued request waits for one that is processing: the budget has at
least one slot, and so has every tier. -/
theorem moving_pullReady {k : CapacityConfig} (hwf : c.scheduler.WellFormed)
    (hk : c.estimator.config = k.normalized) (now : Instant) : (c.pullReady now).Moving := by
  have hp := redistributes_pullReady hwf now
  have hnone := selectNext_pullReady hwf now
  have hpos : 0 < ((c.pullReady now).budget now).maxConcurrent :=
    Estimator.maxConcurrent_pos (hp.config.trans hk)
  exact hp.wellFormed.processing_pos hnone rfl hpos

theorem SameWork.moving (h : c.SameWork c') (hm : c.Moving) : c'.Moving := by
  intro hq
  rw [h.scheduler] at hq ⊢
  exact hm hq

private theorem Live.moving_receive (h : c.Live config) (now : Instant) :
    (c.receive now).Moving := by
  unfold receive
  dsimp only
  split
  · exact moving_pullReady (c := { c with statistics := c.statistics.recordSubmission })
      h.scheduler h.settings now
  · next hempty => exact fun hq => absurd hq hempty

theorem Decided.moving {k : CapacityConfig} {n : Nat} {q : Request} (h : Decided c n q now c')
    (hk : c.estimator.config = k.normalized) (hm : c.Moving) : c'.Moving := by
  cases h with
  | rejected same _ _ => exact same.moving hm
  | @immediate c₁ g s same _ _ _ _ _ wellFormed _ _ =>
    exact moving_pullReady
      (c := (c₁.register n q .immediate s g).depart q ⟨q, .zero⟩ 0 now)
      wellFormed (same.config.trans hk) now
  | @queued c₁ g s same _ _ _ wellFormed _ _ =>
    exact moving_pullReady (c := c₁.register n q .queued s g) wellFormed (same.config.trans hk) now

theorem Finished.moving {k : CapacityConfig} {call : Call} {outcome : CallOutcome}
    (h : Finished c call outcome now c') (hk : c.estimator.config = k.normalized) :
    c'.Moving := by
  cases h with
  | @intro c₁ m e s w found processing request wellFormed roster limits waiter same told =>
    have hwf : c₁.scheduler.WellFormed := same.scheduler ▸ wellFormed
    intro hq
    rw [scheduler_deliver] at hq ⊢
    exact moving_pullReady hwf (same.config.trans hk) now hq

theorem Withdrawn.moving {id : RequestId} {b : Bool} (h : Withdrawn c id (b, c'))
    (hc : c.scheduler.WellFormed) (hm : c.Moving) : c'.Moving := by
  cases h with
  | no => exact hm
  | @yes c₁ e s w found queued wellFormed roster _ _ same _ =>
    -- The withdrawn request was queued itself, so something was processing before.
    intro _
    rw [scheduler_deliver, same.scheduler]
    have hqueued := hc.roster.total_withdrawn found queued
    have hpos : 0 < c.scheduler.roster.queued.total := by omega
    change 0 < s.roster.processing.total
    rw [roster]
    exact hm hpos

theorem Live.apply (h : c.Live config) (op : Operation) : (c.apply op).Live config := by
  have ha := h.toConsistent.applied op
  generalize c.apply op = c' at ha
  have hf := h.frames ha
  refine ⟨h.applied ha, hf.settings.config.trans h.settings, ?_,
    hf.gate.prompt h.prompt⟩
  cases ha with
  | @submitted q now _ decided =>
    have hs := settings_receive h.scheduler now
    exact decided.moving (hs.config.trans h.settings) (h.moving_receive _)
  | began begins =>
    obtain ⟨d, -, -, rfl⟩ := beginAt?_eq_some begins
    exact h.moving
  | ended _ finished => exact finished.moving h.settings
  | withdrew _ withdrawn => exact withdrawn.moving h.scheduler h.moving
  | abandoned _ | drained | passed _ | idle _ => exact h.moving

theorem Live.after (h : c.Live config) (ops : List Operation) : (c.after ops).Live config :=
  after_induction (fun _ op h => h.apply op) h ops

/-! ### Every end of a call counts -/

theorem Finished.inHand {call : Call} {outcome : CallOutcome} (h : Finished c call outcome now c')
    (hc : c.scheduler.WellFormed) : c'.inHand + 1 = c.inHand := by
  cases h with
  | @intro c₁ m e s w found processing request wellFormed roster limits waiter same told =>
    have hwf : c₁.scheduler.WellFormed := same.scheduler ▸ wellFormed
    -- The loop moves requests from the queue to the backend, so only the finished one is gone.
    have htotal := (redistributes_pullReady hwf now).total
    have hdone := hc.roster.total_completed found processing
    have hsame : (c.scheduler.roster.completed e).queued = c.scheduler.roster.queued := rfl
    rw [same.scheduler] at htotal
    change (c₁.pullReady now).scheduler.queued.total +
      (c₁.pullReady now).scheduler.processing.total =
      s.roster.queued.total + s.roster.processing.total at htotal
    rw [roster, hsame] at htotal
    unfold Controller.inHand
    rw [scheduler_deliver]
    change (c₁.pullReady now).scheduler.queued.total +
      (c₁.pullReady now).scheduler.processing.total + 1 =
      c.scheduler.roster.queued.total + c.scheduler.roster.processing.total
    omega

/-- Exactly the end of a call takes a request out of hand. -/
theorem Applied.inHand {op : Operation} (h : Applied c op c') (hc : c.scheduler.WellFormed)
    (hop : op.IsOnward) :
    (if op.isEnd && c.does op then 1 else 0) + c'.inHand = c.inHand := by
  cases h with
  | submitted _ => exact absurd hop id
  | began begins =>
    obtain ⟨d, -, -, rfl⟩ := beginAt?_eq_some begins
    exact Nat.zero_add _
  | @ended i outcome now call c' running finished =>
    have hdoes : c.does (.endCall i outcome now) = true :=
      List.any_eq_true.2 ⟨call, List.mem_of_find?_eq_some running, by
        simpa using List.find?_some running⟩
    have := finished.inHand hc
    simp only [Operation.isEnd, hdoes, Bool.and_self, if_true]
    omega
  | withdrew _ _ => exact absurd hop id
  | abandoned _ | drained | passed _ => exact Nat.zero_add _
  | idle cannot => simp [cannot]

private theorem Live.endings_add_inHand (h : c.Live config) {ops : List Operation}
    (hops : ∀ op ∈ ops, op.IsOnward) : c.endings ops + (c.after ops).inHand = c.inHand := by
  induction ops generalizing c with
  | nil => exact Nat.zero_add _
  | cons op ops ih =>
    have hstep := (h.toConsistent.applied op).inHand h.scheduler (hops op List.mem_cons_self)
    have hrest := ih (h.apply op) fun o ho => hops o (List.mem_cons_of_mem _ ho)
    rw [endings, after_cons]
    omega

/-! ### A run can always go on -/

/-- While requests are in hand, some backend call is. -/
theorem Live.exists_call (h : c.Live config) (hc : 0 < c.inHand) :
    c.pending ≠ [] ∨ c.running ≠ [] := by
  have hlen := h.length_calls
  have hm := h.moving
  unfold inHand at hc
  unfold Moving at hm
  rw [← List.length_pos_iff, ← List.length_pos_iff]
  omega

/-- A pending call can begin, and can then end in any way. -/
theorem does_begin {position : Nat} (hp : position < c.pending.length) (now : Instant) :
    c.does (.beginCall position now) = true ∧
    ∀ outcome later, (c.apply (.beginCall position now)).does
      (.endCall c.pending[position].request.id outcome later) = true := by
  refine ⟨by simpa [does] using hp, fun outcome later => ?_⟩
  have hd : c.pending[position]? = some c.pending[position] := List.getElem?_eq_getElem hp
  simp [Controller.apply, beginAt?, hd, does]

/-- Nothing is left when no request is in hand. -/
theorem Live.finished_of_inHand (h : c.Live config) (hc : c.inHand = 0) :
    c.scheduler.roster.entries = [] ∧ c.waiters = [] ∧ c.pending = [] ∧ c.running = [] ∧
    c.gate.inFlight = 0 ∧ c.gate.waiting = [] := by
  have hlen := h.length_calls
  unfold inHand at hc
  have hentries : c.scheduler.roster.entries = [] := by
    have hq := h.scheduler.roster.total_queued
    have hp := h.scheduler.roster.total_processing
    have hq0 : c.scheduler.roster.queued.total = 0 := by
      have : c.scheduler.queued.total = 0 := by omega
      exact this
    have hp0 : c.scheduler.roster.processing.total = 0 := by
      have : c.scheduler.processing.total = 0 := by omega
      exact this
    rw [hq0, eq_comm, List.length_eq_zero_iff] at hq
    rw [hp0, eq_comm, List.length_eq_zero_iff] at hp
    refine List.eq_nil_iff_forall_not_mem.2 fun e he => ?_
    -- An entry is queued or processing.
    cases hs : e.stage with
    | queued =>
      have hmem : e ∈ c.scheduler.roster.queuedEntries := Roster.mem_queuedEntries.2 ⟨he, hs⟩
      rw [hq] at hmem
      cases hmem
    | processing t =>
      have hmem : e ∈ c.scheduler.roster.processingEntries :=
        List.mem_filter.2 ⟨he, by simp [Entry.isProcessing, Entry.state, hs, Stage.state]⟩
      rw [hp] at hmem
      cases hmem
  have hwaiters : c.waiters = [] := by
    have := h.waiters
    rw [hentries] at this
    exact List.map_eq_nil_iff.1 this
  have hgate : c.gate.inFlight = 0 := by rw [h.inFlight, hwaiters, List.length_nil]
  refine ⟨hentries, hwaiters, ?_, ?_, hgate, h.prompt hgate⟩
  · exact List.length_eq_zero_iff.1 (by omega)
  · exact List.length_eq_zero_iff.1 (by omega)

/-- The calls in hand can be brought to their ends, whatever the outcomes are. -/
theorem Live.exists_completion (h : c.Live config) (outcome : CallOutcome) (now : Instant) :
    ∃ ops, (∀ op ∈ ops, op.IsOnward) ∧ c.endings ops = c.inHand := by
  generalize hn : c.inHand = n
  induction n generalizing c with
  | zero => exact ⟨[], by simp, rfl⟩
  | succ n ih =>
    -- One more call ends, after it has begun if it is still pending.
    obtain ⟨first, hfirst, hone⟩ :
        ∃ first : List Operation, (∀ op ∈ first, op.IsOnward) ∧ c.endings first = 1 := by
      rcases h.exists_call (by omega) with hp | hr
      · have hlt : 0 < c.pending.length := List.length_pos_iff.2 hp
        obtain ⟨-, hend⟩ := does_begin hlt now
        refine ⟨[.beginCall 0 now, .endCall c.pending[0].request.id outcome now], ?_, ?_⟩
        · intro op hop
          simp only [List.mem_cons, List.not_mem_nil, or_false] at hop
          rcases hop with rfl | rfl <;> trivial
        · simp [endings, Operation.isEnd, hend]
      · obtain ⟨call, rest, hcons⟩ := List.exists_cons_of_ne_nil hr
        refine ⟨[.endCall call.request.id outcome now], ?_, ?_⟩
        · intro op hop
          rw [List.mem_singleton.1 hop]
          trivial
        · simp [endings, Operation.isEnd, does, hcons]
    have hleft := h.endings_add_inHand hfirst
    obtain ⟨ops, hops, hrest⟩ := ih (h.after first) (by omega)
    refine ⟨first ++ ops, fun op hop => ?_, ?_⟩
    · exact (List.mem_append.1 hop).elim (hfirst op) (hops op)
    · rw [endings_append]
      omega

theorem Live.remembers_after (h : c.Live config) (ops : List Operation) :
    c.gate.Remembers (c.after ops).gate := by
  induction ops generalizing c with
  | nil => exact .of_eq rfl rfl
  | cons op ops ih =>
    have hf := h.frames (h.toConsistent.applied op)
    exact hf.gate.remembers.trans (ih (h.apply op))

/-- In every state that can be reached, some request is processing if one is queued. From there on,
as long as nothing is submitted or withdrawn, each end of a backend call takes one request out of
hand. While fewer calls have ended than there were requests, there is a call in hand; each call in
hand can begin and can end in any way; and a run can be continued until as many have ended. Then
nothing is tracked any more, no drain waits, and every drain that waited has its result. -/
theorem queue_moves_and_drains_end (config : AdmissionConfig) (ops : List Operation) :
    let c := (new config).after ops
    (0 < c.scheduler.queued.total → 0 < c.scheduler.processing.total) ∧
    ∀ more : List Operation, (∀ op ∈ more, op.IsOnward) →
      let c' := c.after more
      let requests := c.scheduler.queued.total + c.scheduler.processing.total
      c.endings more ≤ requests ∧
      (c.endings more < requests → c'.pending ≠ [] ∨ c'.running ≠ []) ∧
      (∀ position, (hp : position < c'.pending.length) → ∀ now,
        c'.does (.beginCall position now) = true ∧
        ∀ outcome later, (c'.apply (.beginCall position now)).does
          (.endCall c'.pending[position].request.id outcome later) = true) ∧
      (∀ call ∈ c'.running, ∀ outcome now,
        c'.does (.endCall call.request.id outcome now) = true) ∧
      (∃ rest : List Operation, (∀ op ∈ rest, op.IsOnward) ∧
        c.endings (more ++ rest) = requests) ∧
      (c.endings more = requests →
        c'.scheduler.roster.entries = [] ∧ c'.waiters = [] ∧ c'.pending = [] ∧ c'.running = [] ∧
        c'.gate.inFlight = 0 ∧ c'.gate.waiting = [] ∧
        ∀ d ∈ c.gate.waiting, ∃ result, (d.index, result) ∈ c'.gate.finished.toList) := by
  intro c
  have h : c.Live config := (live_new config).after ops
  refine ⟨h.moving, fun more hmore => ?_⟩
  intro c' requests
  have h' : c'.Live config := h.after more
  have hcount : c.endings more + c'.inHand = requests := h.endings_add_inHand hmore
  refine ⟨by omega, fun hlt => h'.exists_call (by omega), fun position hp now => does_begin hp now,
    fun call hcall outcome now => ?_, ?_, fun hall => ?_⟩
  · exact List.any_eq_true.2 ⟨call, hcall, by simp⟩
  · obtain ⟨rest, hrest, hends⟩ := h'.exists_completion .panicked .origin
    refine ⟨rest, hrest, ?_⟩
    rw [endings_append]
    exact (congrArg (c.endings more + ·) hends).trans hcount
  · obtain ⟨hentries, hwaiters, hpending, hrunning, hgate, hwaiting⟩ :=
      h'.finished_of_inHand (by omega)
    refine ⟨hentries, hwaiters, hpending, hrunning, hgate, hwaiting, fun d hd => ?_⟩
    rcases (h.remembers_after more).waiting d hd with hw | hr
    · change d ∈ c'.gate.waiting at hw
      rw [hwaiting] at hw
      cases hw
    · exact hr

end Controller

end TieredAdmission

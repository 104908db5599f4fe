import TieredAdmission.Proofs.Admission.Tracking

/-!
# What operations leave as it is

The settings of a controller, that is the capacity configuration and the fixed slots of the tiers,
stay as they were at the start, and the gate moves at most once in an operation. Dispatching queued
requests keeps the number of requests in hand, and every backend call that ends lowers it by one.
-/

namespace TieredAdmission

namespace Controller

variable {c c' c'' : Controller} {now : Instant}

structure SameSettings (c c' : Controller) : Prop where
  config : c'.estimator.config = c.estimator.config
  limits : c'.scheduler.limits? = c.scheduler.limits?

theorem SameSettings.trans (h : c.SameSettings c') (h' : c'.SameSettings c'') :
    c.SameSettings c'' :=
  ⟨h'.config.trans h.config, h'.limits.trans h.limits⟩

theorem SameWork.settings (h : c.SameWork c') : c.SameSettings c' :=
  ⟨h.config, by rw [h.scheduler]⟩

@[simp] theorem scheduler_deliver (c : Controller) (w : Waiter)
    (result : Except AdmissionError Completion) :
    (c.deliver w result).scheduler = c.scheduler := by
  unfold deliver
  dsimp only
  split <;> rfl

@[simp] theorem estimator_deliver (c : Controller) (w : Waiter)
    (result : Except AdmissionError Completion) :
    (c.deliver w result).estimator = c.estimator := by
  unfold deliver
  dsimp only
  split <;> rfl

@[simp] theorem gate_deliver (c : Controller) (w : Waiter)
    (result : Except AdmissionError Completion) :
    (c.deliver w result).gate = c.gate.release := by
  unfold deliver
  dsimp only
  split <;> rfl

@[simp] theorem statistics_deliver (c : Controller) (w : Waiter)
    (result : Except AdmissionError Completion) :
    (c.deliver w result).statistics = c.statistics := by
  unfold deliver
  dsimp only
  split <;> rfl

@[simp] theorem events_deliver (c : Controller) (w : Waiter)
    (result : Except AdmissionError Completion) : (c.deliver w result).events = c.events := by
  unfold deliver
  dsimp only
  split <;> rfl

@[simp] theorem breaker_deliver (c : Controller) (w : Waiter)
    (result : Except AdmissionError Completion) : (c.deliver w result).breaker = c.breaker := by
  unfold deliver
  dsimp only
  split <;> rfl

/-- The loop turns queued requests into processing ones and touches no setting. -/
structure Redistributes (c c' : Controller) : Prop extends SameSettings c c' where
  wellFormed : c'.scheduler.WellFormed
  total : c'.scheduler.queued.total + c'.scheduler.processing.total =
    c.scheduler.queued.total + c.scheduler.processing.total

private theorem redistributes_pullKeeps (c : Controller) (now : Instant) :
    PullKeeps now (Redistributes c) where
  wellFormed := fun _ h => h.wellFormed
  quiet := by
    intro c' c'' hs _ h
    refine ⟨h.toSameSettings.trans hs.settings, hs.scheduler ▸ h.wellFormed, ?_⟩
    rw [hs.scheduler, h.total]
  launch := by
    intro c' next d s h _ hs
    obtain ⟨e, hf, hq, -, hwf, hr, hl⟩ := h.wellFormed.start_ok hs
    obtain ⟨hqueued, hprocessing⟩ := h.wellFormed.roster.total_started now hf hq
    refine ⟨⟨h.config, hl.trans h.limits⟩, hwf, ?_⟩
    change s.roster.queued.total + s.roster.processing.total = _
    have htotal := h.total
    simp only [Scheduler.queued, Scheduler.processing] at htotal ⊢
    rw [hr]
    omega

theorem redistributes_pullReady (h : c.scheduler.WellFormed) (now : Instant) :
    c.Redistributes (c.pullReady now) :=
  (redistributes_pullKeeps c now).pullReady ⟨⟨rfl, rfl⟩, h, rfl⟩

theorem settings_receive (h : c.scheduler.WellFormed) (now : Instant) :
    c.SameSettings (c.receive now) :=
  ((redistributes_pullKeeps c now).receive ⟨⟨rfl, rfl⟩, h, rfl⟩).toSameSettings

/-! ### Operations -/

/-- The settings stay and the gate moves at most once. -/
structure Frames (c c' : Controller) : Prop where
  settings : c.SameSettings c'
  gate : c.gate.Moves c'.gate

theorem Frames.refl (c : Controller) : c.Frames c := ⟨⟨rfl, rfl⟩, .stay⟩

theorem Decided.frames {n : Nat} {q : Request} (h : Decided c n q now c') : c.Frames c' := by
  cases h with
  | @rejected c₁ error same _ _ =>
    refine ⟨⟨same.config, congrArg Scheduler.limits? same.scheduler⟩, ?_⟩
    have hgate : (c₁.reject n q error).gate = c.gate := same.gate
    rw [hgate]
    exact .stay
  | @immediate c₁ g s same _ gate _ _ _ wellFormed _ limits =>
    obtain ⟨⟨hconfig, hlimits⟩, -⟩ := redistributes_pullReady
      (c := (c₁.register n q .immediate s g).depart q ⟨q, .zero⟩ 0 now) wellFormed now
    refine ⟨⟨hconfig.trans same.config, hlimits.trans limits⟩, ?_⟩
    rw [gate_pullReady]
    exact .track gate
  | @queued c₁ g s same _ gate _ wellFormed _ limits =>
    obtain ⟨⟨hconfig, hlimits⟩, -⟩ := redistributes_pullReady
      (c := c₁.register n q .queued s g) wellFormed now
    refine ⟨⟨hconfig.trans same.config, hlimits.trans limits⟩, ?_⟩
    rw [gate_pullReady]
    exact .track gate

theorem Finished.frames {call : Call} {outcome : CallOutcome} (h : Finished c call outcome now c') :
    c.Frames c' := by
  cases h with
  | @intro c₁ m e s w found processing request wellFormed roster limits waiter same told =>
    have hwf : c₁.scheduler.WellFormed := same.scheduler ▸ wellFormed
    obtain ⟨⟨hconfig, hlimits⟩, -⟩ := redistributes_pullReady hwf now
    refine ⟨⟨?_, ?_⟩, ?_⟩
    · rw [estimator_deliver]
      exact hconfig.trans same.config
    · rw [scheduler_deliver]
      exact hlimits.trans ((congrArg Scheduler.limits? same.scheduler).trans limits)
    · rw [gate_deliver]
      change c.gate.Moves (c₁.pullReady now).gate.release
      rw [gate_pullReady, same.gate]
      exact .release

theorem Withdrawn.frames {id : RequestId} {b : Bool} (h : Withdrawn c id (b, c')) :
    c.Frames c' := by
  cases h with
  | no => exact .refl c
  | yes _ _ _ _ limits _ same _ =>
    refine ⟨⟨?_, ?_⟩, ?_⟩
    · rw [estimator_deliver]
      exact same.config
    · rw [scheduler_deliver, same.scheduler]
      exact limits
    · rw [gate_deliver, same.gate]
      exact .release

theorem Tracked.frames (h : c.Tracked) {op : Operation} (ha : Applied c op c') : c.Frames c' := by
  cases ha with
  | @submitted q now c' decided =>
    have hs := settings_receive h.scheduler now
    have hd := decided.frames
    exact ⟨hs.trans hd.settings, gate_receive c now ▸ hd.gate⟩
  | began begins =>
    obtain ⟨d, -, -, rfl⟩ := beginAt?_eq_some begins
    exact ⟨⟨rfl, rfl⟩, .stay⟩
  | ended _ finished => exact finished.frames
  | withdrew _ withdrawn => exact withdrawn.frames
  | abandoned _ => exact ⟨⟨rfl, rfl⟩, .stay⟩
  | @drained limit => exact ⟨⟨rfl, rfl⟩, .drain limit⟩
  | passed passes => exact ⟨⟨rfl, rfl⟩, .pass passes⟩
  | idle _ => exact .refl c

end Controller

end TieredAdmission

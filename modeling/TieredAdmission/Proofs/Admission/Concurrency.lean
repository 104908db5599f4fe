import TieredAdmission.Proofs.Admission.Frame
import TieredAdmission.Proofs.Capacity.Level
import Mathlib.Logic.Relation

/-!
# The concurrency limit

An operation is a chain of steps. A dispatch, on the immediate path or from the queue, adds one
processing request, and is made only while the number of processing requests is below the level that
the estimator yields in that very state; the end of a call takes one request away; every other step
leaves the processing requests and the estimator's histories as they are. So the processing requests
never outnumber the greatest level of the table, nor those of a tier its fixed slots.
-/

namespace TieredAdmission

open Relation

def Operation.instant? : Operation → Option Instant
  | .submit _ now | .beginCall _ now | .endCall _ _ now => some now
  | _ => none

namespace Controller

variable {c c' c'' : Controller} {now : Instant} {op : Operation}

/-- Nothing that was published in between tells of a dispatch. -/
def Silent (c c' : Controller) : Prop :=
  ∃ es, c'.events.history.toList = c.events.history.toList ++ es ∧
    ∀ e ∈ es, e.isDispatch = false

structure Dispatches (q : Request) (now : Instant) (c c' : Controller) : Prop
    extends SameSettings c c' where
  estimator : c'.estimator = c.estimator.recordStart now
  processing : c'.scheduler.processing = c.scheduler.processing.increment q.tier
  pending : ∃ waited, c'.pending = c.pending ++ [⟨q, waited⟩]
  told : ∃ es ms, c'.events.history.toList =
    c.events.history.toList ++ es ++ [.dispatched q.id q.tier ms] ∧ ∀ e ∈ es, e.isDispatch = false

structure Completes (call : Call) (outcome : CallOutcome) (now : Instant) (c c' : Controller) : Prop
    extends SameSettings c c' where
  running : call ∈ c.running
  samples : c'.estimator.samples = (c.estimator.recordComplete now (now.since call.startedAt)
    (!outcome.result.isOk)).samples
  outcomes : c'.estimator.outcomes = (c.estimator.recordComplete now (now.since call.startedAt)
    (!outcome.result.isOk)).outcomes
  processing : c'.scheduler.processing = c.scheduler.processing.decrement call.request.tier
  pending : c'.pending = c.pending
  silent : c.Silent c'

/-- Nothing is dispatched and no call is accounted for. -/
structure Rests (c c' : Controller) : Prop extends SameSettings c c' where
  samples : c'.estimator.samples = c.estimator.samples
  outcomes : c'.estimator.outcomes = c.estimator.outcomes
  processing : c'.scheduler.processing = c.scheduler.processing
  pending : c'.pending.Sublist c.pending
  silent : c.Silent c'

/-- A step of an operation. A dispatch needs a free slot of the budget, and one of the tier where
the slots are fixed. -/
inductive Paced (op : Operation) (c c' : Controller) : Prop where
  | dispatch {q : Request} {now : Instant} (instant : op.instant? = some now)
      (room : c.scheduler.processing.total < (c.budget now).maxConcurrent)
      (slot : c.scheduler.Grants q.tier) (made : Dispatches q now c c')
  | complete {id : RequestId} {outcome : CallOutcome} {now : Instant} {call : Call}
      (ends : op = .endCall id outcome now) (made : Completes call outcome now c c')
  | rest (made : Rests c c')

private theorem lt_of_available_pos (h : 0 < (c.budget now).available) :
    c.scheduler.processing.total < (c.budget now).maxConcurrent :=
  Nat.lt_of_sub_pos h

theorem Silent.refl (c : Controller) : c.Silent c := ⟨[], by simp⟩

theorem silent_of_events (h : c'.events = c.events) : c.Silent c' := ⟨[], by simp [h]⟩

theorem TellsOfBreaker.silent (h : c.TellsOfBreaker c') : c.Silent c' := by
  obtain ⟨ts, hts⟩ := h
  refine ⟨_, hts, fun e he => ?_⟩
  obtain ⟨t, -, rfl⟩ := List.mem_map.1 he
  rfl

theorem SameWork.rests (h : c.SameWork c') (hs : c.Silent c') : c.Rests c' :=
  ⟨h.settings, h.samples, h.outcomes, congrArg Scheduler.processing h.scheduler,
    h.pending ▸ List.Sublist.refl _, hs⟩

/-! ### The dispatching loop -/

private theorem dispatches_launch (h : c.scheduler.WellFormed) {next : Request} {d : Dispatch}
    {s : Scheduler} (hn : c.scheduler.selectNext (c.budget now) now = some next)
    (hs : c.scheduler.start next.id now = .ok (d, s)) :
    0 < (c.budget now).available ∧ c.scheduler.Grants next.tier ∧
    Dispatches next now c (c.launch next d s now) := by
  obtain ⟨hroom, hslot, e, hf, -, rfl⟩ := h.selectNext_some hn
  obtain ⟨e', hf', -, rfl, -, hr, hl⟩ := h.start_ok hs
  obtain rfl : e = e' := Option.some.inj (hf.symm.trans hf')
  refine ⟨hroom, hslot, ⟨rfl, hl⟩, rfl, ?_, ⟨_, rfl⟩, [],
    (now.since e.enqueuedAt).millisWord, ?_, by simp⟩
  · change s.roster.processing = _
    rw [hr]
    rfl
  · rw [List.append_nil]
    exact Array.toList_push

private theorem paced_pullKeeps (c : Controller) (hop : op.instant? = some now) :
    PullKeeps now fun c' => c'.scheduler.WellFormed ∧ ReflTransGen (Paced op) c c' where
  wellFormed := fun _ h => h.1
  quiet := fun _ _ hs he h =>
    ⟨hs.scheduler ▸ h.1, h.2.tail (.rest (hs.rests (silent_of_events he)))⟩
  launch := by
    intro c' next d s h hn hs
    obtain ⟨hroom, hslot, made⟩ := dispatches_launch h.1 hn hs
    obtain ⟨-, -, -, -, hwf, -⟩ := h.1.start_ok hs
    exact ⟨hwf, h.2.tail (.dispatch hop (lt_of_available_pos hroom) hslot made)⟩

theorem paced_pullReady (h : c.scheduler.WellFormed) (hop : op.instant? = some now) :
    ReflTransGen (Paced op) c (c.pullReady now) :=
  ((paced_pullKeeps c hop).pullReady ⟨h, .refl⟩).2

theorem paced_receive (h : c.scheduler.WellFormed) (hop : op.instant? = some now) :
    ReflTransGen (Paced op) c (c.receive now) := by
  refine ((paced_pullKeeps c hop).receive ⟨h, .single (.rest ?_)⟩).2
  exact ⟨⟨rfl, rfl⟩, rfl, rfl, rfl, .refl _, .refl c⟩

/-! ### Operations -/

private theorem rests_deliver (c : Controller) (w : Waiter)
    (result : Except AdmissionError Completion) : c.Rests (c.deliver w result) := by
  unfold deliver
  dsimp only
  split <;> exact ⟨⟨rfl, rfl⟩, rfl, rfl, rfl, .refl _, .refl c⟩

theorem Decided.paced {n : Nat} {q : Request} (h : Decided c n q now c')
    (hop : op.instant? = some now) : ReflTransGen (Paced op) c c' := by
  cases h with
  | @rejected c₁ error same told _ =>
    refine .tail (.single (.rest (same.rests told.silent))) (.rest ?_)
    exact ⟨⟨rfl, rfl⟩, rfl, rfl, rfl, .refl _, _, Array.toList_push,
      by simp [AdmissionEvent.isDispatch]⟩
  | @immediate c₁ g s same told gate new room grants wellFormed roster limits =>
    -- The breaker is asked, the newcomer is dispatched, and the loop goes on from there.
    refine .trans (.tail (.single (.rest (same.rests told.silent))) ?_)
      (paced_pullReady wellFormed hop)
    rw [← same.budget] at room
    rw [← same.scheduler] at grants roster limits
    refine .dispatch hop (lt_of_available_pos room) grants
      ⟨⟨rfl, limits⟩, rfl, ?_, ⟨_, rfl⟩, [.admitted q.id q.tier .immediate], 0, ?_, ?_⟩
    · change s.roster.processing = _
      rw [roster]
      rfl
    · change ((c₁.events.history.push _).push _).toList = _
      rw [Array.toList_push, Array.toList_push]
    · simp [AdmissionEvent.isDispatch]
  | @queued c₁ g s same told gate new wellFormed roster limits =>
    refine .trans (.tail (.single (.rest (same.rests told.silent))) (.rest ?_))
      (paced_pullReady wellFormed hop)
    rw [← same.scheduler] at roster limits
    refine ⟨⟨rfl, limits⟩, rfl, rfl, ?_, .refl _, _, Array.toList_push, ?_⟩
    · change s.roster.processing = _
      rw [roster]
      rfl
    · simp [AdmissionEvent.isDispatch]

theorem Finished.paced {id : RequestId} {call : Call} {outcome : CallOutcome}
    (h : Finished c call outcome now c') (hcall : call ∈ c.running) :
    ReflTransGen (Paced (.endCall id outcome now)) c c' := by
  cases h with
  | @intro c₁ m e s w found processing request wellFormed roster limits waiter same told =>
    have hwf : c₁.scheduler.WellFormed := same.scheduler ▸ wellFormed
    obtain ⟨ts, hts⟩ := told
    have made : Completes call outcome now c c₁ := by
      refine ⟨⟨same.config, ?_⟩, hcall, same.samples, same.outcomes, ?_, same.pending, ?_⟩
      · rw [same.scheduler]
        exact limits
      · rw [same.scheduler]
        change s.roster.processing = _
        rw [roster, ← request]
        rfl
      · rw [List.append_assoc] at hts
        refine ⟨_, hts, fun e he => ?_⟩
        rcases List.mem_append.1 he with he | he
        · obtain ⟨t, -, rfl⟩ := List.mem_map.1 he
          rfl
        · rw [List.mem_singleton.1 he]
          rfl
    refine .trans (.single (.complete rfl made)) (.trans (paced_pullReady hwf rfl) ?_)
    refine .tail (.single (.rest ?_)) (.rest (rests_deliver _ _ _))
    exact ⟨⟨rfl, rfl⟩, rfl, rfl, rfl, .refl _, .refl _⟩

theorem Withdrawn.paced {id : RequestId} {b : Bool} (h : Withdrawn c id (b, c')) :
    ReflTransGen (Paced op) c c' := by
  cases h with
  | no => exact .refl
  | @yes c₁ e s w found queued wellFormed roster limits waiter same told =>
    refine .tail (.single (.rest ?_)) (.rest (rests_deliver _ _ _))
    refine ⟨⟨same.config, ?_⟩, same.samples, same.outcomes, ?_, same.pending ▸ .refl _, _, told, ?_⟩
    · rw [same.scheduler]
      exact limits
    · rw [same.scheduler]
      change s.roster.processing = _
      rw [roster]
      rfl
    · simp [AdmissionEvent.isDispatch]

theorem Tracked.paced (h : c.Tracked) (op : Operation) :
    ReflTransGen (Paced op) c (c.apply op) := by
  have ha := h.toConsistent.applied op
  generalize c.apply op = c' at ha
  cases ha with
  | submitted decided => exact (paced_receive h.scheduler rfl).trans (decided.paced rfl)
  | began begins =>
    obtain ⟨d, -, -, rfl⟩ := beginAt?_eq_some begins
    exact .single (.rest ⟨⟨rfl, rfl⟩, rfl, rfl, rfl, List.eraseIdx_sublist _ _, .refl c⟩)
  | ended running finished => exact finished.paced (List.mem_of_find?_eq_some running)
  | withdrew _ withdrawn => exact withdrawn.paced
  | abandoned _ | drained | passed _ =>
    exact .single (.rest ⟨⟨rfl, rfl⟩, rfl, rfl, rfl, .refl _, .refl c⟩)
  | idle _ => exact .refl

/-! ### Bounds -/

/-- The processing requests are within the bounds of the configuration. -/
structure Bounded (config : AdmissionConfig) (c : Controller) : Prop where
  settings : c.estimator.config = config.capacity.normalized
  limits : c.scheduler.limits? = (Scheduler.new config.scheduler).limits?
  total : c.scheduler.processing.total ≤ config.capacity.topLevel
  tiers : ∀ limits, c.scheduler.limits? = some limits →
    ∀ t, c.scheduler.processing.get t ≤ limits.get t

variable {config : AdmissionConfig}

theorem bounded_new (config : AdmissionConfig) : (new config).Bounded config where
  settings := rfl
  limits := rfl
  total := by
    simp [new, Scheduler.processing, Scheduler.roster_new, PerTier.const, PerTier.total]
  tiers := by
    intro limits _ t
    simp [new, Scheduler.processing, Scheduler.roster_new]

theorem Paced.bounded (h : Paced op c c') (hb : c.Bounded config) : c'.Bounded config := by
  cases h with
  | @dispatch q now instant room slot made =>
    refine ⟨made.config.trans hb.settings, made.limits.trans hb.limits, ?_, ?_⟩
    -- There was room for one more, and the level of the moment is one of the table's.
    · rw [made.processing, PerTier.total_increment]
      exact Nat.le_trans room (Estimator.maxConcurrent_le hb.settings)
    · intro limits hl t
      rw [made.limits] at hl
      have hle := hb.tiers limits hl t
      have hlt := slot limits hl
      rw [made.processing, PerTier.get_increment]
      split
      · next ht =>
        rw [ht]
        exact hlt
      · exact hle
  | complete _ made =>
    have hle (t : Tier) : c'.scheduler.processing.get t ≤ c.scheduler.processing.get t := by
      rw [made.processing, PerTier.get_decrement]
      split <;> omega
    refine ⟨made.config.trans hb.settings, made.limits.trans hb.limits, ?_, ?_⟩
    · have he := hle .enterprise
      have hp := hle .premium
      have hf := hle .free
      have ht := hb.total
      simp only [PerTier.get, PerTier.total] at he hp hf ht ⊢
      omega
    · intro limits hl t
      rw [made.limits] at hl
      exact Nat.le_trans (hle t) (hb.tiers limits hl t)
  | rest made =>
    refine ⟨made.config.trans hb.settings, made.limits.trans hb.limits, ?_, ?_⟩
    · rw [made.processing]
      exact hb.total
    · rw [made.limits, made.processing]
      exact hb.tiers

theorem Bounded.of_paced (h : ReflTransGen (Paced op) c c') (hb : c.Bounded config) :
    c'.Bounded config := by
  induction h with
  | refl => exact hb
  | tail _ hstep ih => exact hstep.bounded ih

theorem bounded_after (config : AdmissionConfig) (ops : List Operation) :
    ((new config).after ops).Bounded config := by
  have h : ((new config).after ops).Tracked ∧ ((new config).after ops).Bounded config :=
    after_induction (P := fun c => c.Tracked ∧ c.Bounded config)
      (fun _ op h => ⟨h.1.apply op, h.2.of_paced (h.1.paced op)⟩)
      ⟨tracked_new config, bounded_new config⟩ ops
  exact h.2

/-- In every state that can be reached, each operation dispatches only while the number of
processing requests is below the level of that moment. Hence the processing requests never outnumber
the greatest level of the table, and those of a tier never its fixed slots, of which it has at least
one. -/
theorem dispatches_within_limits (config : AdmissionConfig) (ops : List Operation) :
    let c := (new config).after ops
    (∀ op, ReflTransGen (Paced op) c (c.apply op)) ∧
    c.scheduler.processing.total ≤ config.capacity.topLevel ∧
    (config.scheduler.kind = .fixedConcurrency →
      ∀ t, c.scheduler.processing.get t ≤ max (config.scheduler.fixedLimits.get t) 1) := by
  intro c
  have h : c.Tracked := tracked_after config ops
  have hb : c.Bounded config := bounded_after config ops
  refine ⟨h.paced, hb.total, fun hkind t => ?_⟩
  have hl := hb.limits
  rw [Scheduler.limits?_new, if_pos hkind] at hl
  have hle := hb.tiers _ hl t
  rwa [PerTier.get_map] at hle

end Controller

end TieredAdmission

import TieredAdmission.Proofs.Admission.BreakerGate
import TieredAdmission.Proofs.Breaker.Transitions

/-!
# The breaker in the events

The controller takes the changes of its breaker within the operation that makes them and tells its
observers. Between two operations nothing is left to tell, and the changes told are those that the
breaker made, so the events are a log of the breaker like the one that its owner gets by taking the
changes.
-/

namespace TieredAdmission

namespace Controller

open BreakerState

variable {c : Controller}

/-- The changes of the breaker that the observers were told of, first to last. -/
def breakerLog (c : Controller) : List BreakerTransition :=
  c.events.history.toList.filterMap AdmissionEvent.breakerChange?

private theorem notes_breakerAfter (c : Controller) (op : Operation) :
    c.breaker.Notes (c.breakerAfter op) := by
  have hsame : c.breaker.Notes c.breaker := CircuitBreaker.notes_of_same rfl rfl
  cases op with
  | submit q now =>
    rw [breakerAfter, breakerAsked]
    split
    · exact CircuitBreaker.notes_probe _ _
    · exact hsame
  | endCall id outcome now =>
    rw [breakerAfter]
    split
    · exact hsame
    · change CircuitBreaker.Notes _ (if _ then _ else _)
      split
      · exact CircuitBreaker.notes_recordSuccess _
      · exact CircuitBreaker.notes_recordFailure _ _ _
  | beginCall | cancel | abandon | drain | passTime => exact hsame

private theorem Tracked.pending_apply (h : c.Tracked) (hp : c.breaker.pending = [])
    (op : Operation) : (c.apply op).breaker.pending = [] := by
  rw [(h.shows_apply hp op).breaker]

/-- An operation that changes the state of the breaker tells of this change, and one that does not
tells of none. -/
theorem Tracked.breakerLog_apply (h : c.Tracked) (hp : c.breaker.pending = []) (op : Operation) :
    (c.apply op).breakerLog =
        c.breakerLog ++ c.breaker.state.change (c.apply op).breaker.state ∧
      (c.breaker.state ≠ (c.apply op).breaker.state →
        BreakerTransition.IsLegal ⟨c.breaker.state, (c.apply op).breaker.state⟩) := by
  obtain ⟨hb, -, es, hes, hchanges, -⟩ := h.shows_apply hp op
  have hn := notes_breakerAfter c op
  refine ⟨?_, ?_⟩
  · rw [breakerLog, hes, List.filterMap_append, hchanges, hn.pending, hp, List.nil_append, hb]
    rfl
  · rw [hb]
    exact hn.legal

theorem Tracked.breakerLog_after (h : c.Tracked) (hp : c.breaker.pending = [])
    (ops : List Operation) :
    (c.after ops).breakerLog =
      c.breakerLog ++ changesAlong (fun c => c.breaker.state) Controller.apply c ops := by
  induction ops generalizing c with
  | nil => exact (List.append_nil _).symm
  | cons op ops ih =>
    rw [after_cons, ih (h.apply op) (h.pending_apply hp op), (h.breakerLog_apply hp op).1,
      changesAlong, List.append_assoc]

/-- Wherever in a run the changes of a breaker are taken, the lists taken and what is still noted
are, one after the other, a chain of legal changes from the closed state to the present one, with
one change for each call of the run that changed the state. After any operations of a controller
nothing is still noted, and the changes that its events tell of are such a chain of its own
breaker. -/
theorem breaker_changes_are_logged (config : BreakerConfig) (uses : List BreakerUse)
    (admission : AdmissionConfig) (ops : List Operation) :
    (let start := CircuitBreaker.new config
     let b := uses.foldl CircuitBreaker.use start
     let log := (start.taken uses).flatten ++ b.pending
     BreakerState.closed.Chain log b.state ∧
       log = changesAlong CircuitBreaker.state CircuitBreaker.use start uses) ∧
    (let start := new admission
     let c := start.after ops
     c.breaker.pending = [] ∧ BreakerState.closed.Chain c.breakerLog c.breaker.state ∧
       c.breakerLog = changesAlong (fun c => c.breaker.state) Controller.apply start ops) := by
  have hlog := (CircuitBreaker.new config).taken_append_pending uses
  have htold := (tracked_new admission).breakerLog_after rfl ops
  refine ⟨⟨?_, hlog⟩, ?_, ?_, htold⟩
  · rw [hlog]
    exact chain_changesAlong CircuitBreaker.state CircuitBreaker.use
      (a := CircuitBreaker.new config) (P := fun _ => True) (fun _ _ _ => trivial)
      (fun b u _ => b.legal_use u) trivial uses
  · exact (watched_after admission ops).pending
  · rw [htold]
    exact chain_changesAlong (fun c => c.breaker.state) Controller.apply
      (P := fun c => c.Tracked ∧ c.breaker.pending = [])
      (fun _ op h => ⟨h.1.apply op, h.1.pending_apply h.2 op⟩)
      (fun _ op h => (h.1.breakerLog_apply h.2 op).2) ⟨tracked_new admission, rfl⟩ ops

end Controller

end TieredAdmission

import TieredAdmission.Proofs.Breaker.History

/-!
# The log of a breaker

A call of a breaker makes at most one change of state, one of four, and notes it behind those that
were noted before. Hence what has been taken so far followed by what is still noted is the list of
all changes of the run, each once and in order, wherever in the run the changes were taken.
-/

namespace TieredAdmission

/-- A change that the state machine of the breaker has. -/
inductive BreakerTransition.IsLegal : BreakerTransition → Prop where
  | trip : IsLegal ⟨.closed, .opened⟩
  | probe : IsLegal ⟨.opened, .halfOpen⟩
  | relapse : IsLegal ⟨.halfOpen, .opened⟩
  | recover : IsLegal ⟨.halfOpen, .closed⟩

namespace BreakerState

/-- Legal changes, each from the state to which the one before it led, lead from a state to
another. -/
def Chain : BreakerState → List BreakerTransition → BreakerState → Prop
  | s, [], s' => s = s'
  | s, t :: ts, s' => t.source = s ∧ t.IsLegal ∧ t.target.Chain ts s'

/-- The change from a state to the next one; none if they are the same. -/
def change (s s' : BreakerState) : List BreakerTransition := if s = s' then [] else [⟨s, s'⟩]

/-- The changes along a run, one for each step that leads to another state. -/
def changesAlong {α β : Type} (state : α → BreakerState) (step : α → β → α) :
    α → List β → List BreakerTransition
  | _, [] => []
  | a, x :: xs => (state a).change (state (step a x)) ++ changesAlong state step (step a x) xs

variable {s s' s'' : BreakerState} {ts us : List BreakerTransition}

theorem Chain.append (h : s.Chain ts s') (h' : s'.Chain us s'') : s.Chain (ts ++ us) s'' := by
  induction ts generalizing s with
  | nil => cases h; exact h'
  | cons t ts ih => exact ⟨h.1, h.2.1, ih h.2.2⟩

private theorem chain_change (h : s ≠ s' → BreakerTransition.IsLegal ⟨s, s'⟩) :
    s.Chain (s.change s') s' := by
  by_cases hs : s = s'
  · simp [change, Chain, hs]
  · simpa [change, hs, Chain] using h hs

/-- The changes along a run form a chain when an invariant of the run makes each of them legal. -/
theorem chain_changesAlong {α β : Type} (state : α → BreakerState) (step : α → β → α)
    {P : α → Prop} (keeps : ∀ a x, P a → P (step a x))
    (legal : ∀ a x, P a → state a ≠ state (step a x) →
      BreakerTransition.IsLegal ⟨state a, state (step a x)⟩) {a : α} (h : P a) (xs : List β) :
    (state a).Chain (changesAlong state step a xs) (state (xs.foldl step a)) := by
  induction xs generalizing a with
  | nil => rfl
  | cons x xs ih => exact (chain_change (legal a x h)).append (ih (keeps a x h))

end BreakerState

open BreakerState

/-- A use of a breaker by its owner: a call, or the taking of the changes noted so far. -/
inductive BreakerUse where
  | signal (x : BreakerSignal)
  | take

namespace CircuitBreaker

variable {b b' : CircuitBreaker} {s : BreakerState}

def use (b : CircuitBreaker) : BreakerUse → CircuitBreaker
  | .signal x => b.apply x
  | .take => b.takeTransitions.2

/-- The lists that a run takes, first to last. -/
def taken : CircuitBreaker → List BreakerUse → List (List BreakerTransition)
  | _, [] => []
  | b, .signal x :: us => (b.use (.signal x)).taken us
  | b, .take :: us => b.takeTransitions.1 :: (b.use .take).taken us

/-! ### One call -/

/-- From one breaker to the next there is at most one change, a legal one, and it is noted. -/
structure Notes (b b' : CircuitBreaker) : Prop where
  pending : b'.pending = b.pending ++ b.state.change b'.state
  legal : b.state ≠ b'.state → BreakerTransition.IsLegal ⟨b.state, b'.state⟩

theorem notes_of_same (hs : b'.state = b.state) (hp : b'.pending = b.pending) : b.Notes b' where
  pending := by simp [change, hs, hp]
  legal h := absurd hs.symm h

/-- The counters may change along with the state. -/
theorem notes_moveTo (hs : b'.state = b.state) (hp : b'.pending = b.pending)
    (h : b.state ≠ s → BreakerTransition.IsLegal ⟨b.state, s⟩) : b.Notes (b'.moveTo s) where
  pending := by
    rw [state_moveTo, change, ← hs, ← hp]
    split
    · next h => rw [moveTo, if_pos h, List.append_nil]
    · next h => exact pending_moveTo_of_ne h
  legal := by rwa [state_moveTo]

/-- Only an open breaker begins to probe. -/
theorem notes_probe (b : CircuitBreaker) (now : Instant) : b.Notes (b.probe now) := by
  rw [probe]
  split
  · next h => exact notes_moveTo rfl rfl fun _ => h.1 ▸ .probe
  · exact notes_of_same rfl rfl

theorem notes_recordSuccess (b : CircuitBreaker) : b.Notes b.recordSuccess := by
  rw [recordSuccess]
  split
  · next h =>
    split
    · exact notes_moveTo rfl rfl fun _ => h ▸ .recover
    · exact notes_of_same rfl rfl
  · exact notes_of_same rfl rfl

/-- A failure opens a breaker from either of the other states. -/
theorem notes_recordFailure (b : CircuitBreaker) (t : Tier) (now : Instant) :
    b.Notes (b.recordFailure t now) := by
  have hlegal (h : b.state ≠ .opened) : BreakerTransition.IsLegal ⟨b.state, .opened⟩ := by
    cases hs : b.state with
    | closed => exact .trip
    | halfOpen => exact .relapse
    | opened => exact absurd hs h
  rw [recordFailure]
  dsimp only
  split
  · exact notes_moveTo rfl rfl hlegal
  · exact notes_of_same rfl rfl

private theorem notes_apply (b : CircuitBreaker) (x : BreakerSignal) : b.Notes (b.apply x) := by
  cases x with
  | check t rate now => exact notes_probe b now
  | success => exact notes_recordSuccess b
  | failure t now => exact notes_recordFailure b t now

/-! ### Runs -/

/-- What is taken and what stays noted, together, are what was noted before and the changes of the
run. -/
theorem taken_append_pending (b : CircuitBreaker) (us : List BreakerUse) :
    (b.taken us).flatten ++ (us.foldl use b).pending =
      b.pending ++ changesAlong CircuitBreaker.state use b us := by
  induction us generalizing b with
  | nil => simp [taken, changesAlong]
  | cons u us ih =>
    cases u with
    | signal x =>
      rw [taken, List.foldl_cons, ih, changesAlong, use, (notes_apply b x).pending,
        List.append_assoc]
    | take =>
      rw [taken, List.foldl_cons, List.flatten_cons, List.append_assoc, ih, changesAlong]
      simp [use, takeTransitions, change]

theorem legal_use (b : CircuitBreaker) (u : BreakerUse) (h : b.state ≠ (b.use u).state) :
    BreakerTransition.IsLegal ⟨b.state, (b.use u).state⟩ := by
  cases u with
  | signal x => exact (notes_apply b x).legal h
  | take => exact absurd rfl h

/-- A failure while probing, between two takings, is in the log like every other change. -/
example :
    let uses : List BreakerUse := [.signal (.failure .free ⟨0⟩), .take,
      .signal (.check .free 0.0 ⟨30000000001⟩), .signal (.failure .free ⟨30000000001⟩), .take]
    (new { tripThreshold := 1 }).taken uses =
      [[⟨.closed, .opened⟩], [⟨.opened, .halfOpen⟩, ⟨.halfOpen, .opened⟩]] := by decide

end CircuitBreaker

end TieredAdmission

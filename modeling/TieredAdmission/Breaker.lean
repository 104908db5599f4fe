import TieredAdmission.Telemetry
import TieredAdmission.Time.Instant

/-!
# The circuit breaker

One breaker stops every tier during an outage; how many recent errors are tolerated is decided tier
by tier. Failures summed over the tiers open it. When more than the timeout has passed since the
last failure, the next check lets it probe, and enough successes while probing close it. Changes of
state are kept, oldest first, until they are taken.
-/

namespace TieredAdmission

structure BreakerConfig where
  /-- The failures, summed over the tiers, that open the breaker. -/
  tripThreshold : Nat := 5
  /-- How long after the last failure an open breaker probes. -/
  openTimeoutSecs : Nat := 30
  /-- The successes while probing that close the breaker. -/
  successThreshold : Nat := 3
  /-- The rolling error rate that a tier tolerates. -/
  errorThreshold : PerTier Float := ⟨0.01, 0.05, 0.20⟩

/-- How long after the last failure an open breaker probes. -/
def BreakerConfig.openTimeout (c : BreakerConfig) : Duration := .ofSeconds c.openTimeoutSecs

structure BreakerTransition where
  source : BreakerState
  target : BreakerState
deriving DecidableEq, Repr

structure BreakerSnapshot where
  state : BreakerState
  failures : PerTier Nat
  successCount : Nat
deriving DecidableEq, Repr

structure CircuitBreaker where
  config : BreakerConfig
  state : BreakerState := .closed
  /-- The failures since the start or the last closing. -/
  failures : PerTier Nat := .const 0
  /-- The successes since probing began. -/
  successCount : Nat := 0
  lastFailure : Option Instant := none
  /-- The changes of state not taken yet, oldest first. -/
  pending : List BreakerTransition := []

namespace CircuitBreaker

def new (config : BreakerConfig) : CircuitBreaker := { config := config }

def snapshot (b : CircuitBreaker) : BreakerSnapshot := ⟨b.state, b.failures, b.successCount⟩

/-- The breaker in another state, with the change noted; the same state is no change. -/
def moveTo (b : CircuitBreaker) (target : BreakerState) : CircuitBreaker :=
  if b.state = target then b
  else { b with state := target, pending := b.pending ++ [⟨b.state, target⟩] }

/-- More than the timeout has passed since the last failure. -/
def timeoutPassed (b : CircuitBreaker) (now : Instant) : Bool :=
  match b.lastFailure with
  | none => true
  | some t => decide (b.config.openTimeout < now.since t)

def probe (b : CircuitBreaker) (now : Instant) : CircuitBreaker :=
  if b.state = .opened ∧ b.timeoutPassed now then { b with successCount := 0 }.moveTo .halfOpen
  else b

def tolerates (b : CircuitBreaker) (t : Tier) (errorRate : Float) : Bool :=
  decide (errorRate ≤ b.config.errorThreshold.get t)

/-- Whether a request of a tier may be admitted at an error rate. An open breaker whose timeout has
passed begins to probe here. -/
def canProcess (b : CircuitBreaker) (t : Tier) (errorRate : Float) (now : Instant) :
    Bool × CircuitBreaker :=
  let b := b.probe now
  (b.state != .opened && b.tolerates t errorRate, b)

/-- Notes a success; it counts only while probing. -/
def recordSuccess (b : CircuitBreaker) : CircuitBreaker :=
  if b.state = .halfOpen then
    if b.config.successThreshold ≤ b.successCount + 1 then
      { b with failures := .const 0, successCount := 0 }.moveTo .closed
    else { b with successCount := b.successCount + 1 }
  else b

def recordFailure (b : CircuitBreaker) (t : Tier) (now : Instant) : CircuitBreaker :=
  let b := { b with failures := b.failures.increment t, lastFailure := some now }
  if b.config.tripThreshold ≤ b.failures.total then b.moveTo .opened else b

/-- The changes of state since the last call, oldest first. -/
def takeTransitions (b : CircuitBreaker) : List BreakerTransition × CircuitBreaker :=
  (b.pending, { b with pending := [] })

@[simp] theorem state_moveTo (b : CircuitBreaker) (s : BreakerState) : (b.moveTo s).state = s := by
  unfold moveTo
  split
  · assumption
  · rfl

theorem pending_moveTo_of_ne {b : CircuitBreaker} {s : BreakerState} (h : b.state ≠ s) :
    (b.moveTo s).pending = b.pending ++ [⟨b.state, s⟩] := by simp [moveTo, h]

end CircuitBreaker

end TieredAdmission

import TieredAdmission.Telemetry
import TieredAdmission.Drain

/-!
# Health

The verdict for a host's probes, from the phase of the gate, the breaker and the queue depth.
-/

namespace TieredAdmission

inductive HealthState where
  | healthy
  | degraded
  | unhealthy
deriving DecidableEq, Repr

def HealthState.title : HealthState → String
  | healthy => "Healthy"
  | degraded => "Degraded"
  | unhealthy => "Unhealthy"

structure HealthConfig where
  /-- The queue depth from which the core is degraded. -/
  maxQueueDepth : Nat := 1000
deriving DecidableEq, Repr

structure HealthInputs where
  phase : DrainPhase
  breaker : BreakerState
  queueDepth : Nat
  processing : Nat
deriving DecidableEq, Repr

structure HealthReport where
  state : HealthState
  ready : Bool
  accepting : Bool
  breaker : BreakerState
  queueDepth : Nat
  processing : Nat
deriving DecidableEq, Repr

namespace HealthConfig

/-- Traffic is accepted and the backend is usable. -/
def isReady (c : HealthConfig) (i : HealthInputs) : Bool :=
  i.phase == .running && i.breaker != .opened && decide (i.queueDepth < c.maxQueueDepth)

def isAlive (_ : HealthConfig) : Bool := true

def stateOf (c : HealthConfig) (i : HealthInputs) : HealthState :=
  if i.phase ≠ .running ∨ i.breaker = .opened then .unhealthy
  else if i.breaker = .halfOpen ∨ c.maxQueueDepth ≤ i.queueDepth then .degraded
  else .healthy

def report (c : HealthConfig) (i : HealthInputs) : HealthReport where
  state := c.stateOf i
  ready := c.isReady i
  accepting := i.phase == .running
  breaker := i.breaker
  queueDepth := i.queueDepth
  processing := i.processing

end HealthConfig

end TieredAdmission

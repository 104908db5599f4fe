import TieredAdmission.Execution
import TieredAdmission.Telemetry
import TieredAdmission.Scheduler.Roster
import TieredAdmission.Decimal.Fixed

/-!
# Admission errors

Why a submission did not complete. Rejections, where the backend was never called, and backend
failures are told apart, and each error has a status code for a transport layer.
-/

namespace TieredAdmission

/-- Why a submission did not complete. -/
inductive AdmissionError where
  | breakerOpen (tier : Tier) (state : BreakerState) (errorRate : Float)
  | backend (id : RequestId) (tier : Tier) (source : BackendError)
  | cancelled (id : RequestId)
  | shuttingDown
  | duplicateRequest (id : RequestId)
  | internal (text : String)

namespace AdmissionError

def message : AdmissionError → String
  | breakerOpen tier state rate =>
    "circuit breaker " ++ state.name ++ " rejected " ++ tier.name ++ " request (error rate " ++
      Decimal.fixed 3 rate ++ ")"
  | backend id tier source =>
    "request " ++ id ++ " (" ++ tier.name ++ ") failed: " ++ source.message
  | cancelled id => "request " ++ id ++ " was cancelled before dispatch"
  | shuttingDown => "admission is draining; not accepting new requests"
  | duplicateRequest id => "request id " ++ id ++ " is already in flight"
  | internal text => "internal scheduling error: " ++ text

/-- The request never reached the backend. -/
def isRejection : AdmissionError → Bool
  | breakerOpen _ _ _ | shuttingDown | duplicateRequest _ => true
  | _ => false

/-- The same request may be submitted again later. -/
def isRetryable : AdmissionError → Bool
  | breakerOpen _ _ _ | shuttingDown | backend _ _ (.unavailable _) => true
  | _ => false

def statusCode : AdmissionError → Nat
  | breakerOpen _ _ _ | shuttingDown => 503
  | backend _ _ (.invalidPayload _) => 400
  | backend _ _ _ => 502
  | duplicateRequest _ => 409
  | cancelled _ => 499
  | internal _ => 500

/-- The label under which a rejection is counted. -/
def reason : AdmissionError → RejectionReason
  | breakerOpen _ _ _ => .circuitBreaker
  | shuttingDown => .shuttingDown
  | duplicateRequest _ => .duplicate
  | _ => .other

def ofScheduler : SchedulerError → AdmissionError
  | .duplicateRequest id => duplicateRequest id
  | e => internal e.message

end AdmissionError

end TieredAdmission

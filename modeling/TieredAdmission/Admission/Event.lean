import TieredAdmission.Request
import TieredAdmission.Telemetry

/-!
# Admission events

What observers are told about the life of a request and about the breaker.
-/

namespace TieredAdmission

inductive AdmissionEvent where
  | admitted (id : RequestId) (tier : Tier) (path : DispatchPath)
  | dispatched (id : RequestId) (tier : Tier) (waitedMs : Nat)
  | completed (id : RequestId) (tier : Tier) (success : Bool) (processingMs : Nat)
  | rejected (id : RequestId) (tier : Tier) (reason : String)
  | cancelled (id : RequestId) (tier : Tier)
  | breakerTransition (source target : BreakerState)
deriving DecidableEq, Repr

namespace AdmissionEvent

private def tierDatum (t : Tier) : Datum := .text t.name

/-- The event as a record, its kind under `event`. -/
def toDatum : AdmissionEvent → Datum
  | admitted id tier path =>
    .record [("event", .text "admitted"), ("id", .text id), ("tier", tierDatum tier),
      ("path", .text path.name)]
  | dispatched id tier ms =>
    .record [("event", .text "dispatched"), ("id", .text id), ("tier", tierDatum tier),
      ("waited_ms", .integer ms)]
  | completed id tier success ms =>
    .record [("event", .text "completed"), ("id", .text id), ("tier", tierDatum tier),
      ("success", .flag success), ("processing_ms", .integer ms)]
  | rejected id tier reason =>
    .record [("event", .text "rejected"), ("id", .text id), ("tier", tierDatum tier),
      ("reason", .text reason)]
  | cancelled id tier =>
    .record [("event", .text "cancelled"), ("id", .text id), ("tier", tierDatum tier)]
  | breakerTransition source target =>
    .record [("event", .text "breaker_transition"), ("from", .text source.name),
      ("to", .text target.name)]

private def tier? (d : Datum) : Option Tier := (d.word? .event).bind Tier.ofName?

/-- The kind of an event and the value that holds its parts: a record with the kind under `event`,
or a list that begins with the kind. -/
private def split? : Datum → Option (String × Datum)
  | .list (kind :: parts) => kind.text?.map fun k => (k, .list parts)
  | d@(.record fields) => ((fields.lookup "event").bind Datum.text?).map fun k => (k, d)
  | _ => none

/-- The parts of an event by name; a list has to hold all of them. -/
private def parts? (names : List String) : Datum → Option (String → Option Datum)
  | .record fields => some fun n => fields.lookup n
  | .list xs => if xs.length = names.length then some fun n => (names.zip xs).lookup n else none
  | _ => none

/-- Reads an event from a record or a list. -/
def ofDatum? (d : Datum) : Option AdmissionEvent := do
  let (kind, body) ← split? d
  match kind with
  | "admitted" =>
    let p ← parts? ["id", "tier", "path"] body
    let path ← required p "path" fun d => (d.word? .event).bind DispatchPath.ofName?
    return .admitted (← required p "id" Datum.text?) (← required p "tier" tier?) path
  | "dispatched" =>
    let p ← parts? ["id", "tier", "waited_ms"] body
    return .dispatched (← required p "id" Datum.text?) (← required p "tier" tier?)
      (← required p "waited_ms" Datum.word64?)
  | "completed" =>
    let p ← parts? ["id", "tier", "success", "processing_ms"] body
    return .completed (← required p "id" Datum.text?) (← required p "tier" tier?)
      (← required p "success" Datum.flag?) (← required p "processing_ms" Datum.word64?)
  | "rejected" =>
    let p ← parts? ["id", "tier", "reason"] body
    return .rejected (← required p "id" Datum.text?) (← required p "tier" tier?)
      (← required p "reason" Datum.text?)
  | "cancelled" =>
    let p ← parts? ["id", "tier"] body
    return .cancelled (← required p "id" Datum.text?) (← required p "tier" tier?)
  | "breaker_transition" =>
    let p ← parts? ["from", "to"] body
    return .breakerTransition
      (← required p "from" fun d => (d.word? .event).bind BreakerState.ofName?)
      (← required p "to" fun d => (d.word? .event).bind BreakerState.ofName?)
  | _ => none

end AdmissionEvent

end TieredAdmission

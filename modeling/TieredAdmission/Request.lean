import TieredAdmission.Tier.Basic
import TieredAdmission.Datum

/-!
# Requests

A request carries an identifier chosen by its caller, a tier, a payload and overrides of the
execution mode. `promptText` finds the prompt in the payload shapes that carry one.
-/

namespace TieredAdmission

/-- The identifier of a request, unique among the requests in flight. -/
abbrev RequestId := String

structure Overrides where
  forceSimulated : Bool := false
  forceReal : Bool := false
deriving DecidableEq, Repr

structure Request where
  id : RequestId
  tier : Tier
  payload : Datum := .null
  overrides : Overrides := {}

/-- The prompt in a payload: the text itself, the text under `prompt`, or the texts under `content`
of the `messages`, joined by newlines. -/
def promptText (payload : Datum) : Option String :=
  match payload.text? with
  | some s => some s
  | none =>
    match (payload.field? "prompt").bind Datum.text? with
    | some s => some s
    | none =>
      match (payload.field? "messages").bind Datum.list? with
      | none => none
      | some messages =>
        match messages.filterMap fun m => (m.field? "content").bind Datum.text? with
        | [] => none
        | parts => some ("\n".intercalate parts)

end TieredAdmission

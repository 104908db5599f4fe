import TieredAdmission.Admission.Report
import TieredAdmission.Config.Gateway

/-!
# Running a simulation

Requests of all tiers are submitted at once to a controller over the simulated backend, and the
simulation runs until every one has been answered. Chance has no part here: the caller says for each
request which tier it has, how long its call takes and whether it fails. Time passes only from the
end of one call to the end of the next.
-/

namespace TieredAdmission

/-- What chance decides about a request. -/
structure Draw where
  tier : Tier
  latency : Duration
  fails : Bool

def simulatedRequest (index : Nat) (d : Draw) : Request where
  id := Decimal.text index
  tier := d.tier
  payload := .record [("prompt", .text ("synthetic request " ++ Decimal.text index))]
  overrides := { forceSimulated := true, forceReal := false }

def Call.endsAt (config : SimulatorConfig) (draws : Array Draw) (c : Call) : Instant :=
  let latency := ((Decimal.word64? c.request.id).bind fun n => draws[n]?).elim .zero Draw.latency
  c.startedAt.after (config.processingTime latency)

/-- The call that ends first, of several the one that began first. -/
def firstToEnd (config : SimulatorConfig) (draws : Array Draw) : List Call → Option Call
  | [] => none
  | c :: cs =>
    match firstToEnd config draws cs with
    | none => some c
    | some d => if c.endsAt config draws ≤ d.endsAt config draws then some c else some d

def simulatedOutcome (config : SimulatorConfig) (draws : Array Draw) (r : Request) : CallOutcome :=
  let fails := ((Decimal.word64? r.id).bind fun n => draws[n]?).elim false Draw.fails
  config.outcome r.payload fails

/-- Ends one call after another, at most `fuel` of them; the instant of the last end comes first. -/
def runToEnd (config : SimulatorConfig) (draws : Array Draw) :
    Nat → Instant → Controller → Instant × Controller
  | 0, now, c => (now, c)
  | fuel + 1, now, c =>
    let c := c.settle (fun _ => none) now
    match firstToEnd config draws c.running with
    | none => (now, c)
    | some call =>
      let now := call.endsAt config draws
      runToEnd config draws fuel now
        (c.finish call (simulatedOutcome config draws call.request) now)

def simulate (config : GatewayConfig) (draws : Array Draw) : DetailedStats :=
  let requests := draws.toList.zipIdx.map fun (d, n) => simulatedRequest n d
  let submitted := requests.foldl (fun c r => c.submit r .origin) (Controller.new config.admission)
  let (now, c) := runToEnd config.execution.simulator draws (draws.size + 1) .origin submitted
  (c.drain (some config.shutdownTimeout)).detailedStats now

/-- The tier of the request with a number when the tiers take turns: two enterprise requests, then
three premium and five free ones. -/
def tierInTurn (index : Nat) : Tier :=
  if index % 10 < 2 then .enterprise else if index % 10 < 5 then .premium else .free

end TieredAdmission

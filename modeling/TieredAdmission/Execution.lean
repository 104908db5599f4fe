import TieredAdmission.Request
import TieredAdmission.Decimal.Digits
import TieredAdmission.Text.Blank
import TieredAdmission.Time.Duration

/-!
# Execution

A backend call ends with an output or an error, or it panics. Requests run against the simulated or
the real backend by the global mode and by their own overrides, of which the simulated one wins.
`SimulatorConfig.answer` is the simulated backend's answer once its latency has passed and it is
settled whether the call fails; at a failure rate that gives no odds to settle it by, the call
panics.
-/

namespace TieredAdmission

inductive BackendError where
  | failed (text : String)
  | unavailable (text : String)
  | invalidPayload (text : String)
deriving DecidableEq, Repr

def BackendError.message : BackendError → String
  | failed text => "backend call failed: " ++ text
  | unavailable text => "backend unavailable: " ++ text
  | invalidPayload text => "invalid payload: " ++ text

structure UsageStats where
  promptTokens : Nat := 0
  completionTokens : Nat := 0
  totalTokens : Nat := 0
deriving DecidableEq, Repr

structure ExecutionOutput where
  content : String
  usage : UsageStats
  /-- The simulated backend made it. -/
  simulated : Bool
deriving DecidableEq, Repr

inductive CallOutcome where
  | answered (result : Except BackendError ExecutionOutput)
  | panicked

/-- The result of a call; a panic is a failure. -/
def CallOutcome.result : CallOutcome → Except BackendError ExecutionOutput
  | answered r => r
  | panicked => .error (.failed "executor panicked")

inductive ExecutionMode where
  | simulated
  | real
deriving DecidableEq, Repr

namespace ExecutionMode

def name : ExecutionMode → String
  | simulated => "simulated"
  | real => "real"

def ofName? (s : String) : Option ExecutionMode := [simulated, real].find? fun m => m.name == s

/-- Reads a mode; a word that is no mode is returned as it was looked up. -/
def parse (s : String) : Except String ExecutionMode :=
  match Text.word s with
  | "simulated" | "simulator" | "sim" => .ok simulated
  | "real" => .ok real
  | other => .error other

def unknownMessage (word : String) : String := "unknown execution mode: " ++ word

/-- A request with these overrides runs against the simulated backend. -/
def usesSimulator (m : ExecutionMode) (o : Overrides) : Bool :=
  o.forceSimulated || (!o.forceReal && m == simulated)

end ExecutionMode

/-- The backend that a request goes to. -/
inductive Route where
  | simulated
  | real
  /-- The real one was asked for and there is none. -/
  | missing
deriving DecidableEq, Repr

structure Router where
  mode : ExecutionMode
  hasReal : Bool

def Router.route (r : Router) (o : Overrides) : Route :=
  if r.mode.usesSimulator o then .simulated else if r.hasReal then .real else .missing

def Router.missingBackend : BackendError := .unavailable "no real backend configured"

structure SimulatorConfig where
  minLatencyMs : Nat := 200
  maxLatencyMs : Nat := 800
  /-- The probability that a call fails. -/
  failureRate : Float := 0.0
  completionTokens : Nat := 32

/-- A double between zero and one, the nearest one to the given double; what is no number stays. -/
def clampUnit (x : Float) : Float := if x < 0.0 then 0.0 else if 1.0 < x then 1.0 else x

/-- The tokens of a prompt: a quarter of its bytes, at least one, in 32 bits; totals stop at the
largest 32-bit number. -/
def estimateUsage (promptBytes completionTokens : Nat) : UsageStats :=
  let limit := Word.limit32 - 1
  let prompt := min (max (promptBytes / 4) 1) limit
  { promptTokens := prompt
    completionTokens := completionTokens
    totalTokens := min (prompt + completionTokens) limit }

namespace SimulatorConfig

/-- The range of latencies; a lower bound above the upper one gives way to it. -/
def latencyRange (c : SimulatorConfig) : Duration × Duration :=
  let low := min c.minLatencyMs c.maxLatencyMs
  (.ofMillis low, .ofMillis (max c.maxLatencyMs low))

/-- The odds by which chance settles whether a call fails. Chance takes nothing but a number between
zero and one, and panics at anything else. -/
def odds? (c : SimulatorConfig) : Option Float :=
  let odds := clampUnit c.failureRate
  if 0.0 ≤ odds ∧ odds ≤ 1.0 then some odds else none

/-- Whether calls fail, when chance has no part in it: always from a rate of one on, never down to
a rate of zero. -/
def certain? (c : SimulatorConfig) : Option Bool :=
  if 1.0 ≤ c.failureRate then some true
  else if c.failureRate ≤ 0.0 then some false
  else none

def answer (c : SimulatorConfig) (payload : Datum) (fails : Bool) :
    Except BackendError ExecutionOutput :=
  if fails then .error (.failed "simulated backend failure")
  else
    let usage := estimateUsage ((promptText payload).getD "").utf8ByteSize c.completionTokens
    .ok
      { content := "Simulated response (" ++ Decimal.text usage.promptTokens ++ " prompt tokens)"
        usage
        simulated := true }

def outcome (c : SimulatorConfig) (payload : Datum) (fails : Bool) : CallOutcome :=
  match c.odds? with
  | none => .panicked
  | some _ => .answered (c.answer payload fails)

/-- The time that a call takes when its latency is drawn. It is drawn before the call, so a call
that panics takes no time. -/
def processingTime (c : SimulatorConfig) (latency : Duration) : Duration :=
  match c.odds? with
  | none => .zero
  | some _ => latency

end SimulatorConfig

end TieredAdmission

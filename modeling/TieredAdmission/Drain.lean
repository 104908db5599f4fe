import TieredAdmission.Time.Instant

/-!
# Draining

The gate counts the requests in flight. A drain closes the gate for good and waits for the count to
reach zero, without a limit or until a limit has passed; any number of drains may wait. When the
first of them ends, the gate is stopped, even when requests are still in flight. Time passes for the
gate only when it is told so. Its timers have a granularity of one millisecond: a limit is over at
the first whole millisecond of the clock that is not before its end.
-/

namespace TieredAdmission

inductive DrainPhase where
  | running
  | draining
  | stopped
deriving DecidableEq, Repr

namespace DrainPhase

def name : DrainPhase → String
  | running => "running"
  | draining => "draining"
  | stopped => "stopped"

def ofName? (s : String) : Option DrainPhase :=
  [running, draining, stopped].find? fun p => p.name == s

end DrainPhase

inductive DrainResult where
  /-- A drain without a limit saw the count at zero. -/
  | drained
  /-- A drain with a limit saw the count at zero. -/
  | complete
  /-- The limit passed with requests still in flight. -/
  | timeout (remaining : Nat)
deriving DecidableEq, Repr

/-- A drain that waits. -/
structure DrainTask where
  index : Nat
  /-- The instant at which it gives up. -/
  deadline : Option Instant
deriving DecidableEq, Repr

/-- How the task ends when the count is zero. -/
def DrainTask.success (d : DrainTask) : DrainResult :=
  if d.deadline.isSome then .complete else .drained

structure DrainGate where
  phase : DrainPhase := .running
  inFlight : Nat := 0
  /-- The reading of the gate's clock, which begins at the origin. -/
  now : Instant := .origin
  /-- The drains that wait, oldest first. -/
  waiting : List DrainTask := []
  /-- The drains that ended, in the order of their ends. -/
  finished : Array (Nat × DrainResult) := #[]
  /-- The drains begun so far. -/
  begun : Nat := 0

namespace DrainGate

def isAccepting (g : DrainGate) : Bool := g.phase == .running

/-- One more request in flight, while the gate is open. -/
def track? (g : DrainGate) : Option DrainGate :=
  if g.phase = .running then some { g with inFlight := g.inFlight + 1 } else none

/-- The deadline has come: the whole milliseconds up to now reach it. -/
def isOver (g : DrainGate) (deadline : Instant) : Bool :=
  decide ((deadline.since .origin).millisUp ≤ (g.now.since .origin).millis)

/-- How a waiting drain ends now, if it does. -/
def outcome? (g : DrainGate) (d : DrainTask) : Option DrainResult :=
  if g.inFlight = 0 then some d.success
  else
    match d.deadline with
    | none => none
    | some deadline => if g.isOver deadline then some (.timeout g.inFlight) else none

/-- Ends every drain that has nothing to wait for. -/
def settle (g : DrainGate) : DrainGate :=
  let ended := g.waiting.filterMap fun d => (g.outcome? d).map fun r => (d.index, r)
  if ended.isEmpty then g
  else
    { g with
      phase := .stopped
      waiting := g.waiting.filter fun d => (g.outcome? d).isNone
      finished := g.finished ++ ended.toArray }

def release (g : DrainGate) : DrainGate := { g with inFlight := g.inFlight - 1 }.settle

/-- Closes the gate and waits, up to a limit if there is one. -/
def drain (g : DrainGate) (limit : Option Duration) : DrainGate :=
  settle
    { g with
      phase := if g.phase = .running then .draining else g.phase
      waiting := g.waiting ++ [⟨g.begun, limit.map g.now.after⟩]
      begun := g.begun + 1 }

/-- Time passes, unless the clock would leave the instants that can be stored. -/
def pass? (g : DrainGate) (d : Duration) : Option DrainGate :=
  if (g.now.after d).Readable then some { g with now := g.now.after d }.settle else none

end DrainGate

end TieredAdmission

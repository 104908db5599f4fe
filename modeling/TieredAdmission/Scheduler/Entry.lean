import TieredAdmission.Request
import TieredAdmission.Time.Instant

/-!
# Tracked requests

A scheduler tracks a request from its submission to the end of its backend call: first queued, then
processing since some instant. Completed requests are not tracked.
-/

namespace TieredAdmission

/-- The name of a tracked request's stage. -/
inductive EntryState where
  | queued
  | processing
deriving DecidableEq, Repr

namespace EntryState

def name : EntryState → String
  | queued => "queued"
  | processing => "processing"

def ofName? (s : String) : Option EntryState := [queued, processing].find? fun e => e.name == s

/-- The capitalised word for a state, as messages have it. -/
def title : EntryState → String
  | queued => "Queued"
  | processing => "Processing"

end EntryState

/-- Where a tracked request stands. -/
inductive Stage where
  | queued
  | processing (since : Instant)
deriving DecidableEq, Repr

namespace Stage

def state : Stage → EntryState
  | queued => .queued
  | processing _ => .processing

/-- When processing began. -/
def since? : Stage → Option Instant
  | queued => none
  | processing t => some t

theorem since?_isSome (s : Stage) : s.since?.isSome = (s.state == .processing) := by
  cases s <;> rfl

end Stage

/-- A request tracked by a scheduler. -/
structure Entry where
  request : Request
  enqueuedAt : Instant
  /-- The entry's place in the order of arrivals. -/
  sequence : Nat
  stage : Stage

structure EntrySnapshot where
  id : RequestId
  tier : Tier
  state : EntryState
  waitedMs : Nat
  processingMs : Option Nat
  /-- The current score, of a queued entry of a scheduler that scores. -/
  priority : Option Float

namespace Entry

def id (e : Entry) : RequestId := e.request.id

def tier (e : Entry) : Tier := e.request.tier

def state (e : Entry) : EntryState := e.stage.state

def isQueued (e : Entry) : Bool := e.state == .queued

def isProcessing (e : Entry) : Bool := e.state == .processing

/-- The time since the entry was enqueued. -/
def age (e : Entry) (now : Instant) : Duration := now.since e.enqueuedAt

/-- The time between enqueueing and dispatch; none before the dispatch. -/
def waited (e : Entry) : Duration :=
  match e.stage with
  | .queued => .zero
  | .processing t => t.since e.enqueuedAt

def snapshot (e : Entry) (now : Instant) (priority : Option Float) : EntrySnapshot where
  id := e.id
  tier := e.tier
  state := e.state
  waitedMs := (match e.stage with
    | .queued => e.age now
    | .processing _ => e.waited).millisWord
  processingMs := e.stage.since?.map fun t => (now.since t).millisWord
  priority := priority

end Entry

/-- A request that leaves for the backend. -/
structure Dispatch where
  request : Request
  /-- The time it was queued. -/
  waited : Duration

end TieredAdmission

import TieredAdmission.Scheduler.Entry
import TieredAdmission.Tier.PerTier

/-!
# The roster of tracked requests

The bookkeeping that every scheduler shares: the entries in order of arrival, the number of queued
and of processing ones per tier, and the next sequence number. An operation that cannot be done is
reported with its cause and leaves the roster as it was.
-/

namespace TieredAdmission

inductive SchedulerError where
  | duplicateRequest (id : RequestId)
  | unknownRequest (id : RequestId)
  | invalidTransition (id : RequestId) (state : EntryState)
deriving DecidableEq, Repr

def SchedulerError.message : SchedulerError → String
  | duplicateRequest id => "request " ++ id ++ " is already tracked"
  | unknownRequest id => "request " ++ id ++ " is not tracked"
  | invalidTransition id state => "request " ++ id ++ " cannot move from " ++ state.title

/-- The tracked requests and their counts. -/
structure Roster where
  /-- In order of arrival. -/
  entries : List Entry := []
  queued : PerTier Nat := .const 0
  processing : PerTier Nat := .const 0
  nextSequence : Nat := 0

namespace Roster

def find? (r : Roster) (id : RequestId) : Option Entry := r.entries.find? fun e => e.id == id

def contains (r : Roster) (id : RequestId) : Bool := (r.find? id).isSome

def queuedEntries (r : Roster) : List Entry := r.entries.filter Entry.isQueued

def processingEntries (r : Roster) : List Entry := r.entries.filter Entry.isProcessing

/-- The roster with the next sequence number used up. -/
def skipSequence (r : Roster) : Roster := { r with nextSequence := r.nextSequence + 1 }

/-- The roster with one more queued request. -/
def addQueued (r : Roster) (request : Request) (now : Instant) : Roster :=
  { r.skipSequence with
    entries := r.entries ++ [⟨request, now, r.nextSequence, .queued⟩]
    queued := r.queued.increment request.tier }

/-- The roster with one more request, which is processing from its arrival. -/
def addProcessing (r : Roster) (request : Request) (now : Instant) : Roster :=
  { r.skipSequence with
    entries := r.entries ++ [⟨request, now, r.nextSequence, .processing now⟩]
    processing := r.processing.increment request.tier }

/-- The entries with the stage of one identifier changed. -/
def setStage (id : RequestId) (stage : Stage) (es : List Entry) : List Entry :=
  es.map fun e => if e.id == id then { e with stage := stage } else e

/-- The entries without those of one identifier. -/
def erase (id : RequestId) (es : List Entry) : List Entry := es.filter fun e => e.id != id

def start (r : Roster) (id : RequestId) (now : Instant) :
    Except SchedulerError (Dispatch × Roster) :=
  match r.find? id with
  | none => .error (.unknownRequest id)
  | some e =>
    match e.stage with
    | .processing _ => .error (.invalidTransition id .processing)
    | .queued =>
      .ok (⟨e.request, now.since e.enqueuedAt⟩,
        { r with
          entries := setStage id (.processing now) r.entries
          queued := r.queued.decrement e.tier
          processing := r.processing.increment e.tier })

def complete (r : Roster) (id : RequestId) : Except SchedulerError (Entry × Roster) :=
  match r.find? id with
  | none => .error (.unknownRequest id)
  | some e =>
    match e.stage with
    | .queued => .error (.invalidTransition id .queued)
    | .processing _ =>
      .ok (e,
        { r with
          entries := erase id r.entries
          processing := r.processing.decrement e.tier })

def withdraw (r : Roster) (id : RequestId) : Option (Request × Roster) :=
  match r.find? id with
  | none => none
  | some e =>
    match e.stage with
    | .processing _ => none
    | .queued =>
      some (e.request,
        { r with
          entries := erase id r.entries
          queued := r.queued.decrement e.tier })

/-- Every entry as an observer sees it, the queued ones first. -/
def snapshots (r : Roster) (now : Instant) (score : Entry → Option Float) : List EntrySnapshot :=
  (r.queuedEntries.map fun e => e.snapshot now (score e)) ++
  (r.processingEntries.map fun e => e.snapshot now none)

theorem find?_id {r : Roster} {id : RequestId} {e : Entry} (h : r.find? id = some e) :
    e.id = id := by
  have := List.find?_some h
  simpa using this

theorem mem_of_find? {r : Roster} {id : RequestId} {e : Entry} (h : r.find? id = some e) :
    e ∈ r.entries := List.mem_of_find?_eq_some h

end Roster

end TieredAdmission

import TieredAdmission.Scheduler.Roster
import TieredAdmission.Capacity.Budget

/-!
# The fixed-slots scheduler

Every tier has its own number of slots, at least one, and its own queue in order of arrival. The
first tier in priority order with a free slot of its own and a queued request goes next.
-/

namespace TieredAdmission

/-- Static slots per tier, first come first served within a tier. -/
structure FixedSlots where
  limits : PerTier Nat
  /-- The queued identifiers of each tier, in order of arrival. -/
  queues : PerTier (List RequestId) := .const []
  roster : Roster := {}

namespace FixedSlots

def new (limits : PerTier Nat) : FixedSlots := { limits := limits.map fun _ n => max n 1 }

/-- The tier has a slot of its own left. -/
def hasSlot (s : FixedSlots) (t : Tier) : Bool :=
  decide (s.roster.processing.get t < s.limits.get t)

def enqueue (s : FixedSlots) (request : Request) (now : Instant) :
    Except SchedulerError Unit × FixedSlots :=
  if s.roster.contains request.id then (.error (.duplicateRequest request.id), s)
  else
    (.ok (), { s with
      queues := s.queues.modify request.tier (· ++ [request.id])
      roster := s.roster.addQueued request now })

def beginProcessing (s : FixedSlots) (request : Request) (now : Instant) :
    Except SchedulerError Dispatch × FixedSlots :=
  if s.roster.contains request.id then (.error (.duplicateRequest request.id), s)
  else (.ok ⟨request, .zero⟩, { s with roster := s.roster.addProcessing request now })

/-- The queues without an identifier of a tier. -/
def unqueue (s : FixedSlots) (t : Tier) (id : RequestId) : PerTier (List RequestId) :=
  s.queues.modify t fun ids => ids.filter (· != id)

def selectNext (s : FixedSlots) (budget : CapacityBudget) : Option Request :=
  if budget.available = 0 then none
  else
    let next := (Tier.all.filter s.hasSlot).findSome? fun t => (s.queues.get t).head?
    (next.bind s.roster.find?).map (·.request)

def start (s : FixedSlots) (id : RequestId) (now : Instant) :
    Except SchedulerError (Dispatch × FixedSlots) :=
  match s.roster.start id now with
  | .error e => .error e
  | .ok (d, r) => .ok (d, { s with queues := s.unqueue d.request.tier id, roster := r })

def withdraw (s : FixedSlots) (id : RequestId) : Option (Request × FixedSlots) :=
  match s.roster.withdraw id with
  | none => none
  | some (q, r) => some (q, { s with queues := s.unqueue q.tier id, roster := r })

/-- Every entry as an observer sees it; there are no scores. -/
def snapshots (s : FixedSlots) (now : Instant) : List EntrySnapshot :=
  s.roster.snapshots now fun _ => none

end FixedSlots

end TieredAdmission

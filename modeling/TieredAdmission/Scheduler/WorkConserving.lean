import TieredAdmission.Scheduler.Priority
import TieredAdmission.Scheduler.Roster
import TieredAdmission.Capacity.Budget

/-!
# The work-conserving scheduler

While the budget has a free slot, some queued request takes it. The first tier in priority order
that holds less than its target share and has a queued request gets the slot; when there is no such
tier the best candidate of all takes it. Within the chosen tier the best candidate goes. Scores
change with the time, so they are worked out at each selection.
-/

namespace TieredAdmission

/-- Aging priorities with a per-tier fairness override. -/
structure WorkConserving where
  policy : TierPolicy
  agingCap : Duration
  roster : Roster := {}

namespace WorkConserving

def score (s : WorkConserving) (now : Instant) (e : Entry) : Float :=
  priorityScore s.policy e.tier (e.age now) s.agingCap

/-- Tracks a queued request. A refused duplicate uses up a sequence number too. -/
def enqueue (s : WorkConserving) (request : Request) (now : Instant) :
    Except SchedulerError Unit × WorkConserving :=
  if s.roster.contains request.id then
    (.error (.duplicateRequest request.id), { s with roster := s.roster.skipSequence })
  else (.ok (), { s with roster := s.roster.addQueued request now })

/-- Tracks a request that goes to the backend at once. A refused duplicate uses up a sequence number
too. -/
def beginProcessing (s : WorkConserving) (request : Request) (now : Instant) :
    Except SchedulerError Dispatch × WorkConserving :=
  if s.roster.contains request.id then
    (.error (.duplicateRequest request.id), { s with roster := s.roster.skipSequence })
  else (.ok ⟨request, .zero⟩, { s with roster := s.roster.addProcessing request now })

def candidate (s : WorkConserving) (now : Instant) (e : Entry) : Candidate Entry :=
  ⟨s.score now e, e.sequence, e⟩

def best? (s : WorkConserving) (now : Instant) : Option Entry :=
  (Candidate.best? (s.roster.queuedEntries.map (s.candidate now))).map (·.item)

def bestOf? (s : WorkConserving) (now : Instant) (t : Tier) : Option Entry :=
  (Candidate.best?
    ((s.roster.queuedEntries.filter fun e => e.tier == t).map (s.candidate now))).map (·.item)

/-- The tier holds less than its target share of `slots`. -/
def isUnderServed (s : WorkConserving) (slots : Nat) (t : Tier) : Bool :=
  decide (s.roster.processing.get t < s.policy.targetShare t slots)

def selectNext (s : WorkConserving) (budget : CapacityBudget) (now : Instant) : Option Request :=
  if budget.available = 0 then none
  else
    let underServed := Tier.all.findSome? fun t =>
      if s.isUnderServed budget.maxConcurrent t then s.bestOf? now t else none
    (underServed.or (s.best? now)).map (·.request)

/-- Every entry as an observer sees it; queued ones have their score. -/
def snapshots (s : WorkConserving) (now : Instant) : List EntrySnapshot :=
  s.roster.snapshots now fun e => some (s.score now e)

end WorkConserving

end TieredAdmission

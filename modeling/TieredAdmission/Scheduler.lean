import TieredAdmission.Scheduler.WorkConserving
import TieredAdmission.Scheduler.FixedSlots
import TieredAdmission.Text.Blank

/-!
# Schedulers

A scheduler tracks queued and processing requests and says which queued one is dispatched next. The
two kinds share their bookkeeping and differ in the selection, in the slots they grant a tier and in
who may skip the queue. No operation asks whether there is capacity; that is the caller's part.
-/

namespace TieredAdmission

inductive SchedulerKind where
  | workConserving
  | fixedConcurrency
deriving DecidableEq, Repr

namespace SchedulerKind

def name : SchedulerKind → String
  | workConserving => "work_conserving"
  | fixedConcurrency => "fixed_concurrency"

def ofName? (s : String) : Option SchedulerKind :=
  [workConserving, fixedConcurrency].find? fun k => k.name == s

def title : SchedulerKind → String
  | workConserving => "WorkConserving"
  | fixedConcurrency => "FixedConcurrency"

/-- Reads a kind, in which a hyphen may stand for the underscore; a word that is no kind is returned
as it was looked up. -/
def parse (s : String) : Except String SchedulerKind :=
  match Text.word s with
  | "work_conserving" | "work-conserving" => .ok workConserving
  | "fixed_concurrency" | "fixed-concurrency" | "legacy" => .ok fixedConcurrency
  | other => .error other

def unknownMessage (word : String) : String := "unknown scheduler: " ++ word

end SchedulerKind

structure SchedulerConfig where
  kind : SchedulerKind := .workConserving
  /-- A request ages by one point per second up to this many. -/
  agingCapSecs : Nat := 20
  policy : TierPolicy := {}
  /-- The slots of the tiers for the fixed kind. -/
  fixedLimits : PerTier Nat := ⟨3, 2, 1⟩

def SchedulerConfig.agingCap (c : SchedulerConfig) : Duration := .ofSeconds c.agingCapSecs

inductive Scheduler where
  | workConserving (s : WorkConserving)
  | fixedSlots (s : FixedSlots)

namespace Scheduler

def new (c : SchedulerConfig) : Scheduler :=
  match c.kind with
  | .workConserving => workConserving { policy := c.policy, agingCap := c.agingCap }
  | .fixedConcurrency => fixedSlots (.new c.fixedLimits)

def kind : Scheduler → SchedulerKind
  | workConserving _ => .workConserving
  | fixedSlots _ => .fixedConcurrency

def roster : Scheduler → Roster
  | workConserving s => s.roster
  | fixedSlots s => s.roster

def queued (s : Scheduler) : PerTier Nat := s.roster.queued

def processing (s : Scheduler) : PerTier Nat := s.roster.processing

def contains (s : Scheduler) (id : RequestId) : Bool := s.roster.contains id

def enqueue (s : Scheduler) (request : Request) (now : Instant) :
    Except SchedulerError Unit × Scheduler :=
  match s with
  | workConserving s => (s.enqueue request now).map id workConserving
  | fixedSlots s => (s.enqueue request now).map id fixedSlots

def beginProcessing (s : Scheduler) (request : Request) (now : Instant) :
    Except SchedulerError Dispatch × Scheduler :=
  match s with
  | workConserving s => (s.beginProcessing request now).map id workConserving
  | fixedSlots s => (s.beginProcessing request now).map id fixedSlots

def selectNext (s : Scheduler) (budget : CapacityBudget) (now : Instant) : Option Request :=
  match s with
  | workConserving s => s.selectNext budget now
  | fixedSlots s => s.selectNext budget

def start (s : Scheduler) (id : RequestId) (now : Instant) :
    Except SchedulerError (Dispatch × Scheduler) :=
  match s with
  | workConserving s =>
    (s.roster.start id now).map fun (d, r) => (d, workConserving { s with roster := r })
  | fixedSlots s => (s.start id now).map fun (d, s) => (d, fixedSlots s)

def complete (s : Scheduler) (id : RequestId) : Except SchedulerError (Entry × Scheduler) :=
  match s with
  | workConserving s =>
    (s.roster.complete id).map fun (e, r) => (e, workConserving { s with roster := r })
  | fixedSlots s => (s.roster.complete id).map fun (e, r) => (e, fixedSlots { s with roster := r })

def withdraw (s : Scheduler) (id : RequestId) : Option (Request × Scheduler) :=
  match s with
  | workConserving s =>
    (s.roster.withdraw id).map fun (q, r) => (q, workConserving { s with roster := r })
  | fixedSlots s => (s.withdraw id).map fun (q, s) => (q, fixedSlots s)

def snapshots (s : Scheduler) (now : Instant) : List EntrySnapshot :=
  match s with
  | workConserving s => s.snapshots now
  | fixedSlots s => s.snapshots now

/-- The slots each tier is entitled to. -/
def allocation (s : Scheduler) (slots : Nat) : PerTier Nat :=
  match s with
  | workConserving s => s.policy.allocation slots
  | fixedSlots s => s.limits

/-- A newly submitted request of a tier may skip the queue. -/
def canDispatchNow (s : Scheduler) (t : Tier) (budget : CapacityBudget) : Bool :=
  match s with
  | workConserving _ => decide (0 < budget.available)
  | fixedSlots s => decide (0 < budget.available) && s.hasSlot t

/-- Dispatches one selected request after another, on the budgets that `budget` gives for the
scheduler, until none is selected or `fuel` is used up. The dispatched requests come first to
last. -/
def fill (budget : Scheduler → CapacityBudget) (now : Instant) :
    Nat → Scheduler → List Dispatch × Scheduler
  | 0, s => ([], s)
  | fuel + 1, s =>
    match s.selectNext (budget s) now with
    | none => ([], s)
    | some q =>
      match s.start q.id now with
      | .error _ => ([], s)
      | .ok (d, s) =>
        let (ds, s) := fill budget now fuel s
        (d :: ds, s)

/-- Dispatches and completes one selected request after another on one budget. -/
def drain (budget : CapacityBudget) (now : Instant) : Nat → Scheduler → List Entry × Scheduler
  | 0, s => ([], s)
  | fuel + 1, s =>
    match s.selectNext budget now with
    | none => ([], s)
    | some q =>
      match (s.start q.id now).bind fun (_, s) => s.complete q.id with
      | .error _ => ([], s)
      | .ok (e, s) =>
        let (es, s) := drain budget now fuel s
        (e :: es, s)

end Scheduler

end TieredAdmission

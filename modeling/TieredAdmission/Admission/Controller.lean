import TieredAdmission.Admission.Config
import TieredAdmission.Admission.Error
import TieredAdmission.Admission.EventBus
import TieredAdmission.Capacity.Estimator
import TieredAdmission.Statistics

/-!
# The admission controller

The controller is the one way in and out. A submission is checked against the drain gate, the
requests in flight, the circuit breaker and the capacity budget, and is then rejected, dispatched at
once or queued. Whenever capacity may have grown, queued requests are dispatched while the budget
has room, so nothing has to be polled. A dispatched request waits in `pending` until its backend
call begins, is then one of the `running` calls, and leaves when the call is finished. Every
operation is a function of the state and of the instant at which it happens.
-/

namespace TieredAdmission

structure Completion where
  id : RequestId
  tier : Tier
  path : DispatchPath
  output : ExecutionOutput
  /-- The time it was queued. -/
  waited : Duration
  /-- The time the backend call took. -/
  processing : Duration

/-- The caller of an accepted submission. -/
structure Waiter where
  id : RequestId
  /-- The number of submissions before this one. -/
  submission : Nat
  path : DispatchPath
  /-- The caller still waits for the outcome. -/
  listening : Bool := true
deriving DecidableEq, Repr

structure Call where
  request : Request
  waited : Duration
  startedAt : Instant

structure Resolution where
  submission : Nat
  id : RequestId
  result : Except AdmissionError Completion

inductive Fault where
  /-- A selected request could not be dispatched. -/
  | notDispatched (id : RequestId) (cause : SchedulerError)
  /-- A queued request was dispatched and has no waiter. -/
  | noWaiter (id : RequestId)
  /-- The request of a call that ended was not tracked. -/
  | notTracked (id : RequestId) (cause : SchedulerError)
  /-- No caller is registered for a call that ended. -/
  | noCaller (id : RequestId)
deriving DecidableEq, Repr

structure Controller where
  health : HealthConfig
  scheduler : Scheduler
  estimator : Estimator
  breaker : CircuitBreaker
  statistics : Statistics
  events : EventBus
  telemetry : Telemetry := {}
  gate : DrainGate := {}
  /-- One for every tracked request. -/
  waiters : List Waiter := []
  /-- Dispatches whose backend calls have not begun, first to last. -/
  pending : List Dispatch := []
  /-- Backend calls that have begun and not ended, in order of their beginnings. -/
  running : List Call := []
  /-- Every backend call begun so far. -/
  begun : Array Call := #[]
  /-- Every outcome handed to a caller so far. -/
  resolutions : Array Resolution := #[]
  /-- The internal errors met so far. -/
  faults : List Fault := []

namespace Controller

def new (c : AdmissionConfig) : Controller where
  health := c.health
  scheduler := .new c.scheduler
  estimator := .new c.capacity
  breaker := .new c.breaker
  statistics := .new c.statsRetention c.capacity.maxSamples
  events := .new c.eventBuffer

def publish (c : Controller) (e : AdmissionEvent) : Controller :=
  { c with events := c.events.publish e }

def fault (c : Controller) (f : Fault) : Controller := { c with faults := c.faults ++ [f] }

def expect (c : Controller) (holds : Bool) (f : Fault) : Controller :=
  { c with faults := if holds then c.faults else c.faults ++ [f] }

def waiter? (c : Controller) (id : RequestId) : Option Waiter :=
  c.waiters.find? fun w => w.id == id

def budget (c : Controller) (now : Instant) : CapacityBudget :=
  c.estimator.currentBudget now c.scheduler.processing.total

/-- The budget at an instant, with its concurrency level made known. -/
def refresh (c : Controller) (now : Instant) : CapacityBudget × Controller :=
  let (budget, estimator, telemetry) :=
    c.estimator.refreshBudget c.telemetry now c.scheduler.processing.total
  (budget, { c with estimator, telemetry })

/-- Tells the observers and the collector of a change of the breaker. -/
def publishTransition (c : Controller) (t : BreakerTransition) : Controller :=
  { c with telemetry := c.telemetry.recordBreaker t.target }.publish
    (.breakerTransition t.source t.target)

def publishTransitions (c : Controller) : Controller :=
  let (ts, breaker) := c.breaker.takeTransitions
  ts.foldl publishTransition { c with breaker }

def recordQueueDepths (c : Controller) : Controller :=
  { c with
    telemetry :=
      Tier.all.foldl (fun m t => m.recordQueueDepth t (c.scheduler.queued.get t)) c.telemetry }

/-- A request leaves for the backend. -/
def depart (c : Controller) (request : Request) (dispatch : Dispatch) (waitedMs : Nat)
    (now : Instant) : Controller :=
  let c :=
    { c with
      estimator := c.estimator.recordStart now
      pending := c.pending ++ [dispatch] }
  c.publish (.dispatched request.id request.tier waitedMs)

/-- A queued request that the scheduler started leaves for the backend. -/
def launch (c : Controller) (next : Request) (dispatch : Dispatch) (scheduler : Scheduler)
    (now : Instant) : Controller :=
  let c := c.expect (c.waiter? next.id).isSome (.noWaiter next.id)
  { c with scheduler }.depart next dispatch dispatch.waited.millisWord now

/-- Dispatches queued requests while the budget has room, at most `fuel` of them. -/
def pull (now : Instant) : Nat → Controller → Controller
  | 0, c => c
  | fuel + 1, c =>
    let (budget, c) := c.refresh now
    match c.scheduler.selectNext budget now with
    | none => c
    | some next =>
      match c.scheduler.start next.id now with
      | .error e => c.fault (.notDispatched next.id e)
      | .ok (dispatch, scheduler) => pull now fuel (c.launch next dispatch scheduler now)

def pullReady (c : Controller) (now : Instant) : Controller :=
  (pull now (c.scheduler.queued.total + 1) c).recordQueueDepths

def resolve (c : Controller) (submission : Nat) (id : RequestId)
    (result : Except AdmissionError Completion) : Controller :=
  { c with resolutions := c.resolutions.push ⟨submission, id, result⟩ }

def reject (c : Controller) (submission : Nat) (request : Request) (error : AdmissionError) :
    Controller :=
  let c :=
    { c with
      statistics := c.statistics.recordRejection
      telemetry := c.telemetry.recordRejection request.tier error.reason }
  (c.publish (.rejected request.id request.tier error.message)).resolve submission request.id
    (.error error)

def register (c : Controller) (submission : Nat) (request : Request) (path : DispatchPath)
    (scheduler : Scheduler) (gate : DrainGate) : Controller :=
  let c :=
    { c with
      scheduler
      gate
      waiters := c.waiters ++ [Waiter.mk request.id submission path true]
      telemetry := c.telemetry.recordAdmission request.tier path }
  c.publish (.admitted request.id request.tier path)

def dispatchNow (c : Controller) (submission : Nat) (request : Request) (gate : DrainGate)
    (now : Instant) : Controller :=
  match c.scheduler.beginProcessing request now with
  | (.error e, scheduler) =>
    { c with scheduler }.resolve submission request.id (.error (.ofScheduler e))
  | (.ok dispatch, scheduler) =>
    ((c.register submission request .immediate scheduler gate).depart request dispatch 0 now).pullReady
      now

def enqueue (c : Controller) (submission : Nat) (request : Request) (gate : DrainGate)
    (now : Instant) : Controller :=
  match c.scheduler.enqueue request now with
  | (.error e, scheduler) =>
    { c with scheduler }.resolve submission request.id (.error (.ofScheduler e))
  | (.ok _, scheduler) => (c.register submission request .queued scheduler gate).pullReady now

def consult (c : Controller) (t : Tier) (now : Instant) : Bool × Controller :=
  let (budget, c) := c.refresh now
  let (allowed, breaker) := c.breaker.canProcess t budget.errorRate now
  (allowed, { c with breaker }.publishTransitions)

/-- Decides on a submission that passed the gate and is not in flight. -/
def decideOn (c : Controller) (submission : Nat) (request : Request) (gate : DrainGate)
    (now : Instant) : Controller :=
  let budget := c.budget now
  let (allowed, c) := c.consult request.tier now
  if !allowed then
    c.reject submission request (.breakerOpen request.tier c.breaker.state budget.errorRate)
  else if c.scheduler.canDispatchNow request.tier budget then
    c.dispatchNow submission request gate now
  else c.enqueue submission request gate now

/-- Counts a submission. Queued requests get the slots that are free before the newcomer is
considered. -/
def receive (c : Controller) (now : Instant) : Controller :=
  let c := { c with statistics := c.statistics.recordSubmission }
  if 0 < c.scheduler.queued.total then c.pullReady now else c

def submit (c : Controller) (request : Request) (now : Instant) : Controller :=
  let submission := c.statistics.counters.total
  let c := c.receive now
  match c.gate.track? with
  | none => c.reject submission request .shuttingDown
  | some gate =>
    if c.scheduler.contains request.id then
      c.reject submission request (.duplicateRequest request.id)
    else c.decideOn submission request gate now

def dropWaiter (c : Controller) (id : RequestId) : Controller :=
  { c with waiters := c.waiters.filter fun w => w.id != id }

/-- Hands an outcome to a waiter that left the table, which lets go of the drain gate. -/
def deliver (c : Controller) (w : Waiter) (result : Except AdmissionError Completion) :
    Controller :=
  let c := if w.listening then c.resolve w.submission w.id result else c
  { c with gate := c.gate.release }

/-- Begins the backend call of the pending dispatch at a position. -/
def beginAt? (c : Controller) (position : Nat) (now : Instant) : Option (Call × Controller) :=
  match c.pending[position]? with
  | none => none
  | some dispatch =>
    let call : Call := ⟨dispatch.request, dispatch.waited, now⟩
    some (call,
      { c with
        pending := c.pending.eraseIdx position
        running := c.running ++ [call]
        begun := c.begun.push call })

/-- Begins the backend call of the first pending dispatch. -/
def beginNext (c : Controller) (now : Instant) : Option (Call × Controller) := c.beginAt? 0 now

def untrack (c : Controller) (id : RequestId) : Controller :=
  match c.scheduler.complete id with
  | .ok (_, scheduler) => { c with scheduler }
  | .error e => c.fault (.notTracked id e)

def account (c : Controller) (call : Call) (processing : Duration) (success : Bool)
    (now : Instant) : Controller :=
  let id := call.request.id
  let tier := call.request.tier
  let c :=
    { c with
      running := c.running.filter fun r => r.request.id != id
      estimator := c.estimator.recordComplete now processing (!success)
      breaker := if success then c.breaker.recordSuccess else c.breaker.recordFailure tier now }
  let c := c.publishTransitions.untrack id
  let c :=
    { c with
      statistics := c.statistics.recordCompletion now tier call.waited processing success }
  c.publish (.completed id tier success processing.millisWord)

/-- What the caller of a call that ended is told. -/
def report (call : Call) (outcome : CallOutcome) (path : DispatchPath) (processing : Duration) :
    Except AdmissionError Completion :=
  match outcome.result with
  | .ok output =>
    .ok ⟨call.request.id, call.request.tier, path, output, call.waited, processing⟩
  | .error source => .error (.backend call.request.id call.request.tier source)

/-- Accounts for a call that ended, dispatches queued requests into the freed slot and hands the
outcome to the caller. -/
def finish (c : Controller) (call : Call) (outcome : CallOutcome) (now : Instant) : Controller :=
  let id := call.request.id
  let tier := call.request.tier
  let processing := now.since call.startedAt
  let success := outcome.result.isOk
  let c := c.account call processing success now
  let waiter := c.waiter? id
  let c := (c.dropWaiter id).pullReady now
  let c :=
    { c with
      telemetry :=
        (c.telemetry.recordCompletion tier success call.waited).recordLatency tier processing }
  match waiter with
  | none => c.fault (.noCaller id)
  | some w => c.deliver w (report call outcome w.path processing)

/-- Finishes the running call of a request. -/
def finishRunning? (c : Controller) (id : RequestId) (outcome : CallOutcome) (now : Instant) :
    Option Controller :=
  (c.running.find? fun call => call.request.id == id).map fun call => c.finish call outcome now

/-- Withdraws a queued request; false when the identifier is not queued. -/
def cancel (c : Controller) (id : RequestId) : Bool × Controller :=
  match c.scheduler.withdraw id with
  | none => (false, c)
  | some (request, scheduler) =>
    let c := { c with scheduler, statistics := c.statistics.recordCancellation }.recordQueueDepths
    let c := c.publish (.cancelled id request.tier)
    match c.waiter? id with
    | none => (true, c)
    | some w => (true, (c.dropWaiter id).deliver w (.error (.cancelled id)))

/-- The caller of a tracked request stops waiting; the request goes on. False when no caller
waits. -/
def abandon (c : Controller) (id : RequestId) : Bool × Controller :=
  if c.waiters.any fun w => w.id == id && w.listening then
    (true, { c with
      waiters := c.waiters.map fun w => if w.id == id then { w with listening := false } else w })
  else (false, c)

/-- Stops accepting submissions and waits for those accepted, up to a limit if there is one. -/
def drain (c : Controller) (limit : Option Duration) : Controller :=
  { c with gate := c.gate.drain limit }

/-- Time passes for the limits of drains, unless their clock cannot show it. -/
def passTime? (c : Controller) (d : Duration) : Option Controller :=
  (c.gate.pass? d).map fun gate => { c with gate }

/-- Begins pending calls, first to last and at most `fuel` of them. A call for which `backend` has
an outcome ends before the next one begins; other calls run on. -/
def run (backend : Request → Option CallOutcome) (now : Instant) : Nat → Controller → Controller
  | 0, c => c
  | fuel + 1, c =>
    match c.beginNext now with
    | none => c
    | some (call, c) =>
      match backend call.request with
      | none => run backend now fuel c
      | some outcome => run backend now fuel (c.finish call outcome now)

/-- Begins pending calls until none is left. Each call begun was queued or pending before, which
bounds their number. -/
def settle (backend : Request → Option CallOutcome) (now : Instant) (c : Controller) : Controller :=
  run backend now (c.scheduler.queued.total + c.pending.length) c

@[simp] theorem refresh_fst (c : Controller) (now : Instant) :
    (c.refresh now).1 = c.budget now := by
  simp only [refresh, budget]
  exact Estimator.refreshBudget_fst ..

@[simp] theorem scheduler_refresh (c : Controller) (now : Instant) :
    (c.refresh now).2.scheduler = c.scheduler := rfl

end Controller

end TieredAdmission

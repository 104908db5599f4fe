import TieredAdmission.Tier.PerTier
import TieredAdmission.Time.Instant

/-!
# Statistics

Lifetime counters of requests and a rolling history of completions, oldest first. A completion is
dropped when it is older than the retention or when newer ones fill the cap; the counters never
forget. A summary covers the completions within the retention.
-/

namespace TieredAdmission

/-- Lifetime counts of requests. -/
structure RequestCounters where
  /-- Every submission, rejected ones too. -/
  total : Nat := 0
  succeeded : Nat := 0
  failed : Nat := 0
  rejected : Nat := 0
  cancelled : Nat := 0
deriving DecidableEq, Repr

structure CompletionRecord where
  at_ : Instant
  tier : Tier
  waited : Duration
  processing : Duration
deriving DecidableEq, Repr

/-- Aggregates over the retention. -/
structure CompletionSummary where
  completed : PerTier Nat
  avgWait : Duration
  avgProcessing : Duration
  /-- Completions within the last minute. -/
  ratePerMinute : Float

structure Statistics where
  retention : Duration := .ofSeconds 300
  maxRecords : Nat := 1000
  records : List CompletionRecord := []
  counters : RequestCounters := {}

namespace Statistics

def new (retention : Duration) (maxRecords : Nat) : Statistics :=
  { retention, maxRecords := max maxRecords 1 }

def recordSubmission (s : Statistics) : Statistics :=
  { s with counters.total := s.counters.total + 1 }

def recordRejection (s : Statistics) : Statistics :=
  { s with counters.rejected := s.counters.rejected + 1 }

def recordCancellation (s : Statistics) : Statistics :=
  { s with counters.cancelled := s.counters.cancelled + 1 }

def countCompletion (c : RequestCounters) (success : Bool) : RequestCounters :=
  if success then { c with succeeded := c.succeeded + 1 } else { c with failed := c.failed + 1 }

/-- Drops what is too old and what is beyond the cap. -/
def pruned (s : Statistics) (now : Instant) (rs : List CompletionRecord) : List CompletionRecord :=
  let kept := rs.dropWhile fun r => !Instant.isSince (now.before? s.retention) r.at_
  kept.drop (kept.length - s.maxRecords)

def recordCompletion (s : Statistics) (now : Instant) (t : Tier) (waited processing : Duration)
    (success : Bool) : Statistics :=
  { s with
    counters := countCompletion s.counters success
    records := s.pruned now (s.records ++ [⟨now, t, waited, processing⟩]) }

def retained (s : Statistics) (now : Instant) : List CompletionRecord :=
  s.records.filter fun r => Instant.isSince (now.before? s.retention) r.at_

def rateWindow : Duration := .ofSeconds 60

def summary (s : Statistics) (now : Instant) : CompletionSummary :=
  let rs := s.retained now
  let recent := rs.filter fun r => Instant.isSince (now.before? rateWindow) r.at_
  { completed := PerTier.ofFn fun t => (rs.filter fun r => r.tier == t).length
    avgWait := (Duration.sum (rs.map (·.waited))).share rs.length
    avgProcessing := (Duration.sum (rs.map (·.processing))).share rs.length
    ratePerMinute := recent.length.toUInt64.toFloat * 60.0 / rateWindow.toSeconds }

/-- The instant and the sums behind a summary can be stored. -/
def summarizable (s : Statistics) (now : Instant) : Bool :=
  decide now.Readable &&
  decide (Duration.sum ((s.retained now).map (·.waited))).Fits &&
  decide (Duration.sum ((s.retained now).map (·.processing))).Fits

end Statistics

end TieredAdmission

import TieredAdmission.Proofs.Breaker

/-!
# The breaker and its history

The state of a breaker is a matter of history alone: which signals it was given, when, and to which
states they led. The counters stand for what has been recorded since the breaker was last closed and
since it last began to probe. They are not cleared on every change of state, so an invariant ties
them to the thresholds: a breaker that is not closed still has the failures that opened it, and that
is why a single failure ends its probing.
-/

namespace TieredAdmission

inductive BreakerSignal where
  | check (tier : Tier) (errorRate : Float) (now : Instant)
  | success
  | failure (tier : Tier) (now : Instant)

namespace BreakerSignal

def isFailureOf (t : Tier) : BreakerSignal → Bool
  | failure u _ => decide (t = u)
  | check _ _ _ | success => false

def isSuccess : BreakerSignal → Bool
  | success => true
  | check _ _ _ | failure _ _ => false

def failedAt? : BreakerSignal → Option Instant
  | failure _ now => some now
  | check _ _ _ | success => none

end BreakerSignal

/-- A signal and the state it led to. -/
structure BreakerMoment where
  signal : BreakerSignal
  state : BreakerState

/-- What has happened to a breaker, the last moment first. -/
abbrev BreakerHistory := List BreakerMoment

namespace BreakerHistory

/-- A breaker is closed at the start. -/
def state : BreakerHistory → BreakerState
  | [] => .closed
  | m :: _ => m.state

/-- The moments after the last one that led to the state from another state; all of them if there is
none. -/
def sinceEntering (s : BreakerState) : BreakerHistory → BreakerHistory
  | [] => []
  | m :: h => if m.state = s ∧ state h ≠ s then [] else m :: sinceEntering s h

def countSince (s : BreakerState) (p : BreakerSignal → Bool) (h : BreakerHistory) : Nat :=
  (sinceEntering s h).countP fun m => p m.signal

/-- The failures since the start or the last closing. -/
def failures (h : BreakerHistory) : PerTier Nat :=
  .ofFn fun t => countSince .closed (BreakerSignal.isFailureOf t) h

/-- The successes since probing last began. -/
def successes (h : BreakerHistory) : Nat := countSince .halfOpen BreakerSignal.isSuccess h

def lastFailure? (h : BreakerHistory) : Option Instant :=
  h.findSome? fun m => m.signal.failedAt?

/-- The state to which a signal leads. -/
def next (config : BreakerConfig) (h : BreakerHistory) : BreakerSignal → BreakerState
  | .check _ _ now =>
    if state h = .opened ∧ ∃ failed ∈ lastFailure? h, failed.after config.openTimeout < now then
      .halfOpen
    else state h
  | .success =>
    if state h = .halfOpen ∧ successes h + 1 = max config.successThreshold 1 then .closed
    else state h
  | .failure _ _ =>
    match state h with
    | .closed => if (failures h).total + 1 = max config.tripThreshold 1 then .opened else .closed
    | .halfOpen | .opened => .opened

def add (config : BreakerConfig) (h : BreakerHistory) (x : BreakerSignal) : BreakerHistory :=
  ⟨x, next config h x⟩ :: h

/-- The history of the signals from the start. -/
def ofSignals (config : BreakerConfig) (xs : List BreakerSignal) : BreakerHistory :=
  xs.foldl (add config) []

variable {h : BreakerHistory} {m : BreakerMoment} {s : BreakerState} {p : BreakerSignal → Bool}

private theorem countSince_of_entering (hm : m.state = s) (hh : state h ≠ s) :
    countSince s p (m :: h) = 0 := by
  rw [countSince, sinceEntering, if_pos ⟨hm, hh⟩, List.countP_nil]

private theorem countSince_cons (hs : m.state = s → state h = s) :
    countSince s p (m :: h) = countSince s p h + if p m.signal then 1 else 0 := by
  rw [countSince, sinceEntering, if_neg fun hn => hn.2 (hs hn.1), List.countP_cons, countSince]

private theorem failures_of_closing (hm : m.state = .closed) (hh : state h ≠ .closed) :
    failures (m :: h) = .const 0 := by
  refine PerTier.ext_get fun t => ?_
  rw [failures, PerTier.get_ofFn, PerTier.get_const]
  exact countSince_of_entering hm hh

/-- A signal that closes nothing adds its failure, if it is one. -/
theorem failures_cons (hs : m.state = .closed → state h = .closed) :
    failures (m :: h) =
      match m.signal with
      | .failure t _ => (failures h).increment t
      | .check _ _ _ | .success => failures h := by
  refine PerTier.ext_get fun t => ?_
  rw [failures, PerTier.get_ofFn, countSince_cons hs]
  cases m.signal with
  | check u rate now => simp [BreakerSignal.isFailureOf, failures]
  | success => simp [BreakerSignal.isFailureOf, failures]
  | failure u now =>
    rw [PerTier.get_increment, failures, PerTier.get_ofFn]
    by_cases ht : t = u <;> simp [BreakerSignal.isFailureOf, ht]

private theorem successes_of_probing (hm : m.state = .halfOpen) (hh : state h ≠ .halfOpen) :
    successes (m :: h) = 0 :=
  countSince_of_entering hm hh

private theorem successes_cons (hs : m.state = .halfOpen → state h = .halfOpen) :
    successes (m :: h) = successes h + if m.signal.isSuccess then 1 else 0 :=
  countSince_cons hs

private theorem lastFailure?_cons :
    lastFailure? (m :: h) = m.signal.failedAt?.or (lastFailure? h) := by
  cases hm : m.signal.failedAt? <;> simp [lastFailure?, hm]

private theorem next_success_of_ne {config : BreakerConfig} (hh : state h ≠ .halfOpen) :
    next config h .success = state h :=
  if_neg fun hn => hh hn.1

end BreakerHistory

namespace CircuitBreaker

open BreakerHistory

variable {b : CircuitBreaker} {h : BreakerHistory} {now : Instant}

def apply (b : CircuitBreaker) : BreakerSignal → CircuitBreaker
  | .check t rate now => (b.canProcess t rate now).2
  | .success => b.recordSuccess
  | .failure t now => b.recordFailure t now

def after (b : CircuitBreaker) (xs : List BreakerSignal) : CircuitBreaker := xs.foldl apply b

/-- What a breaker knows of its history, and where its counters stand to the thresholds. -/
structure Recalls (b : CircuitBreaker) (h : BreakerHistory) : Prop where
  state : b.state = h.state
  failures : b.failures = h.failures
  lastFailure : b.lastFailure = h.lastFailure?
  below : b.state = .closed → b.failures.total < max b.config.tripThreshold 1
  reached : b.state ≠ .closed → max b.config.tripThreshold 1 ≤ b.failures.total
  failed : b.state ≠ .closed → ∃ t, b.lastFailure = some t
  successes : b.state = .halfOpen →
    b.successCount = h.successes ∧ b.successCount < max b.config.successThreshold 1

private theorem timeoutPassed_iff_after {failed : Instant} (hf : b.lastFailure = some failed) :
    b.timeoutPassed now = true ↔ failed.after b.config.openTimeout < now := by
  rw [timeoutPassed_iff hf, Duration.lt_iff, Instant.lt_iff]
  simp only [Instant.since, Instant.after]
  omega

/-- A threshold of zero counts as one. -/
theorem pos_max_one (threshold : Nat) : 0 < max threshold 1 := by omega

theorem recalls_new (config : BreakerConfig) : (new config).Recalls [] where
  state := rfl
  failures := rfl
  lastFailure := rfl
  below _ := pos_max_one _
  reached hs := absurd rfl hs
  failed hs := absurd rfl hs
  successes hs := by cases hs

namespace Recalls

private theorem next_check (hr : b.Recalls h) (t : Tier) (rate : Float) (now : Instant) :
    h.next b.config (.check t rate now) = (b.probe now).state := by
  rw [BreakerHistory.next, state_probe, ← hr.state, ← hr.lastFailure]
  by_cases ho : b.state = .opened
  · obtain ⟨failed, hf⟩ := hr.failed (by simp [ho])
    simp [ho, hf, timeoutPassed_iff_after hf]
  · simp [ho]

/-- A signal that neither changes the breaker nor is of a kind that it counts. -/
theorem unchanged (hr : b.Recalls h) {x : BreakerSignal} (hx : h.next b.config x = b.state)
    (hfailure : x.failedAt? = none) (hsuccess : b.state = .halfOpen → x.isSuccess = false) :
    b.Recalls (h.add b.config x) := by
  have hstate (s : BreakerState) (hs : h.next b.config x = s) : h.state = s := by
    rw [← hr.state, ← hx, hs]
  refine { hr with
    state := hx.symm
    failures := ?failures
    lastFailure := ?lastFailure
    successes := fun hs => ?successes }
  case failures =>
    rw [hr.failures, add, failures_cons (hstate _)]
    cases x with
    | check t rate now => rfl
    | success => rfl
    | failure t now => cases hfailure
  case lastFailure => rw [hr.lastFailure, add, lastFailure?_cons, hfailure, Option.none_or]
  case successes =>
    rw [add, successes_cons (hstate _), hsuccess hs, if_neg Bool.false_ne_true]
    exact hr.successes hs

/-- A check that begins to probe. -/
theorem probing (hr : b.Recalls h) {x : BreakerSignal} (hx : h.next b.config x = .halfOpen)
    (hs : b.state = .opened) (hfailure : x.failedAt? = none) :
    ({ b with successCount := 0 }.moveTo .halfOpen).Recalls (h.add b.config x) := by
  have hopened : b.state ≠ .closed := by simp [hs]
  refine {
    state := (state_moveTo _ _).trans hx.symm
    failures := ?failures
    lastFailure := ?lastFailure
    below := fun hn => ?below
    reached := fun _ => ?reached
    failed := fun _ => ?failed
    successes := fun _ => ?successes }
  case failures =>
    rw [failures_moveTo, add, failures_cons fun hn => by cases hx.symm.trans hn]
    refine hr.failures.trans ?_
    cases x with
    | check t rate now => rfl
    | success => rfl
    | failure t now => cases hfailure
  case lastFailure =>
    rw [lastFailure_moveTo, add, lastFailure?_cons, hfailure, Option.none_or]
    exact hr.lastFailure
  case below => cases (state_moveTo _ _).symm.trans hn
  case reached =>
    rw [failures_moveTo, config_moveTo]
    exact hr.reached hopened
  case failed =>
    rw [lastFailure_moveTo]
    exact hr.failed hopened
  case successes =>
    rw [successCount_moveTo, add, successes_of_probing hx (by simp [← hr.state, hs])]
    exact ⟨rfl, pos_max_one _⟩

theorem check (hr : b.Recalls h) (t : Tier) (rate : Float) (now : Instant) :
    (b.probe now).Recalls (h.add b.config (.check t rate now)) := by
  have hx := hr.next_check t rate now
  by_cases hp : b.state = .opened ∧ b.timeoutPassed now = true
  · rw [state_probe, if_pos hp] at hx
    rw [probe, if_pos hp]
    exact hr.probing hx hp.1 rfl
  · rw [state_probe, if_neg hp] at hx
    rw [probe, if_neg hp]
    exact hr.unchanged hx rfl fun _ => rfl

/-- The last success that is needed. -/
theorem closing (hr : b.Recalls h) (hs : b.state = .halfOpen)
    (hdone : b.config.successThreshold ≤ b.successCount + 1) :
    ({ b with failures := .const 0, successCount := 0 }.moveTo .closed).Recalls
      (h.add b.config .success) := by
  obtain ⟨hcount, hfew⟩ := hr.successes hs
  have hstate : h.state = .halfOpen := hr.state.symm.trans hs
  have hx : h.next b.config .success = .closed := if_pos ⟨hstate, by omega⟩
  refine {
    state := (state_moveTo _ _).trans hx.symm
    failures := ?failures
    lastFailure := (lastFailure_moveTo _ _).trans hr.lastFailure
    below := fun _ => ?below
    reached := fun hn => absurd (state_moveTo _ _) hn
    failed := fun hn => absurd (state_moveTo _ _) hn
    successes := fun hn => ?successes }
  case failures => rw [failures_moveTo, add, failures_of_closing hx (by simp [hstate])]
  case below =>
    rw [failures_moveTo, config_moveTo]
    exact pos_max_one _
  case successes => cases (state_moveTo _ _).symm.trans hn

/-- A success after which more are needed. -/
theorem counting (hr : b.Recalls h) (hs : b.state = .halfOpen)
    (hmore : b.successCount + 1 < b.config.successThreshold) :
    { b with successCount := b.successCount + 1 }.Recalls (h.add b.config .success) := by
  have hcount := (hr.successes hs).1
  have hstate : h.state = .halfOpen := hr.state.symm.trans hs
  have hx : h.next b.config .success = .halfOpen := by
    rw [BreakerHistory.next, if_neg (by omega), hstate]
  refine { hr with
    state := hs.trans hx.symm
    failures := ?failures
    successes := fun _ => ?successes }
  case failures =>
    refine hr.failures.trans ?_
    rw [add, failures_cons fun hn => by cases hx.symm.trans hn]
  case successes =>
    rw [add, successes_cons fun _ => hstate, ← hcount]
    exact ⟨rfl, Nat.lt_of_lt_of_le hmore (Nat.le_max_left _ _)⟩

theorem success (hr : b.Recalls h) : b.recordSuccess.Recalls (h.add b.config .success) := by
  rw [recordSuccess]
  split
  · next hs =>
    split
    · next hdone => exact hr.closing hs hdone
    · next hmore => exact hr.counting hs (Nat.lt_of_not_le hmore)
  · next hs =>
    have hx : h.next b.config .success = b.state := by
      rw [next_success_of_ne (hr.state ▸ hs), hr.state]
    exact hr.unchanged hx rfl fun hn => absurd hn hs

private theorem next_failure (hr : b.Recalls h) (t : Tier) (now : Instant) :
    h.next b.config (.failure t now) = (b.recordFailure t now).state := by
  rw [BreakerHistory.next, state_recordFailure, ← hr.failures, ← hr.state]
  cases hs : b.state with
  | closed =>
    have hbelow := hr.below hs
    by_cases htrip : b.config.tripThreshold ≤ b.failures.total + 1
    · rw [if_pos htrip]
      exact if_pos (by omega)
    · rw [if_neg htrip]
      exact if_neg (by omega)
  | opened => simp
  | halfOpen =>
    have hreached := hr.reached (by simp [hs])
    exact (if_pos (by omega)).symm

theorem failure (hr : b.Recalls h) (t : Tier) (now : Instant) :
    (b.recordFailure t now).Recalls (h.add b.config (.failure t now)) := by
  have hx := hr.next_failure t now
  have htotal : (b.recordFailure t now).failures.total = b.failures.total + 1 := by
    rw [failures_recordFailure, PerTier.total_increment]
  have hstate := state_recordFailure b t now
  refine {
    state := hx.symm
    failures := ?failures
    lastFailure := lastFailure_recordFailure b t now
    below := fun hs => ?below
    reached := fun hs => ?reached
    failed := fun _ => ⟨now, lastFailure_recordFailure b t now⟩
    successes := fun hs => ?successes }
  case failures =>
    rw [failures_recordFailure, hr.failures, add, failures_cons fun hs => ?_]
    rw [hx, hstate] at hs
    split at hs
    · cases hs
    · exact hr.state.symm.trans hs
  case below =>
    rw [htotal, config_recordFailure]
    rw [hstate] at hs
    split at hs
    · cases hs
    · omega
  case reached =>
    rw [htotal, config_recordFailure]
    rw [hstate] at hs
    split at hs
    · omega
    · have := hr.reached hs
      omega
  case successes =>
    -- No failure leaves a breaker probing.
    rw [hstate] at hs
    split at hs
    · cases hs
    · have := hr.reached (by simp [hs])
      omega

theorem apply (hr : b.Recalls h) (x : BreakerSignal) :
    (b.apply x).Recalls (h.add b.config x) := by
  cases x with
  | check t rate now => exact hr.check t rate now
  | success => exact hr.success
  | failure t now => exact hr.failure t now

end Recalls

@[simp] theorem config_apply (b : CircuitBreaker) (x : BreakerSignal) :
    (b.apply x).config = b.config := by
  cases x with
  | check t rate now => exact config_probe b now
  | success => exact config_recordSuccess b
  | failure t now => exact config_recordFailure b t now

theorem Recalls.after (hr : b.Recalls h) (xs : List BreakerSignal) :
    (b.after xs).Recalls (xs.foldl (add b.config) h) := by
  induction xs generalizing b h with
  | nil => exact hr
  | cons x xs ih => simpa [CircuitBreaker.after] using ih (hr.apply x)

/-- After any signals a breaker is in the state that their history gives, and its counters are those
of the history. An open breaker has a last failure, a breaker that closes has no failures left, and
a success changes nothing unless the breaker probes. -/
theorem refines_history (config : BreakerConfig) (xs : List BreakerSignal) :
    let b := (new config).after xs
    let h := BreakerHistory.ofSignals config xs
    b.state = h.state ∧ b.failures = h.failures ∧ b.lastFailure = h.lastFailure? ∧
    (b.state = .halfOpen → b.successCount = h.successes) ∧
    (b.state = .opened → ∃ failed, b.lastFailure = some failed) ∧
    (∀ x, b.state ≠ .closed → (b.apply x).state = .closed → (b.apply x).failures = .const 0) ∧
    (b.state ≠ .halfOpen → b.apply .success = b) := by
  intro b h
  have hr : b.Recalls h := (recalls_new config).after xs
  refine ⟨hr.state, hr.failures, hr.lastFailure, fun hs => (hr.successes hs).1,
    fun hs => hr.failed (by simp [hs]), fun x hs hclosed => ?_, fun hs => if_neg hs⟩
  have hx := hr.apply x
  rw [hx.failures, add, failures_of_closing _ (hr.state ▸ hs)]
  rw [← hclosed]
  exact hx.state.symm

/-- A failure ends the probing, however many successes came before it. -/
example :
    BreakerHistory.state (.ofSignals { tripThreshold := 2, successThreshold := 2 }
      [.failure .free ⟨0⟩, .failure .premium ⟨0⟩, .check .free 0.0 ⟨30000000001⟩, .success,
        .failure .enterprise ⟨0⟩]) = .opened := by decide

end CircuitBreaker

end TieredAdmission

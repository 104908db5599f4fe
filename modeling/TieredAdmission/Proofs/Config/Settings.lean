import TieredAdmission.Proofs.Config.Rate

/-!
# Settings, their variables and their bounds

Every setting that can be overridden is the value of one variable, if the variable counts, and else
what it was before. Then every whole number with a floor is raised to it. Two floors are other
settings, which are clamped first: samples are kept for the decision window at least, and latencies
go up to their lower bound at least.
-/

namespace TieredAdmission

open Double

/-! ### Variables -/

theorem nonempty?_eq_some_iff {s x : String} : nonempty? s = some x ↔ s ≠ "" ∧ x = s := by
  rw [nonempty?, Option.ite_none_left_eq_some, String.isEmpty_iff, Option.some.injEq]
  exact and_congr_right fun _ => eq_comm

namespace Variable

def Value : Variable → Type
  | scheduler => SchedulerKind
  | executionMode => ExecutionMode
  | simFailureRate => Float
  | logFormat => LogFormat
  | logLevel => String
  | agingCapSecs | decisionWindowSecs | retentionSecs | maxSamples | breakerTrip
  | breakerTimeoutSecs | breakerSuccesses | simMinLatencyMs | simMaxLatencyMs | shutdownTimeout
  | eventBuffer => Nat

/-- How a value is read, once the blanks around it are dropped. -/
def read : (v : Variable) → String → Option v.Value
  | scheduler => fun s => (SchedulerKind.parse s).toOption
  | executionMode => fun s => (ExecutionMode.parse s).toOption
  | simFailureRate => finiteFloat?
  | logFormat => fun s => (LogFormat.parse s).toOption
  | logLevel => nonempty?
  | breakerTrip | breakerSuccesses => Decimal.word32?
  | agingCapSecs | decisionWindowSecs | retentionSecs | maxSamples | breakerTimeoutSecs
  | simMinLatencyMs | simMaxLatencyMs | shutdownTimeout | eventBuffer => Decimal.word64?

end Variable

namespace Environment

variable {env env' : Environment} {v : Variable}

/-- The value that a variable gives its setting, when the variable counts. -/
def value? (env : Environment) (v : Variable) : Option v.Value :=
  (env.text? v.name).bind fun s => v.read (Text.trim s)

private theorem fromUTF8?_eq_some_iff {bytes : ByteArray} {s : String} :
    String.fromUTF8? bytes = some s ↔ bytes = s.toUTF8 := by
  unfold String.fromUTF8?
  constructor
  · intro h
    split at h
    · cases h
      rfl
    · cases h
  · rintro rfl
    exact dif_pos s.isValidUTF8

/-- A variable counts when it is set, is text and can be read without the blanks around it. -/
theorem value?_eq_some_iff {x : v.Value} :
    env.value? v = some x ↔
      ∃ s, env.bytes? v.name = some s.toUTF8 ∧ v.read (Text.trim s) = some x := by
  simp only [value?, text?, Option.bind_eq_some_iff, fromUTF8?_eq_some_iff]
  constructor
  · rintro ⟨s, ⟨bytes, hbytes, rfl⟩, hx⟩
    exact ⟨s, hbytes, hx⟩
  · rintro ⟨s, hbytes, hx⟩
    exact ⟨s, ⟨_, hbytes, rfl⟩, hx⟩

end Environment

namespace GatewayConfig

variable {b c d : GatewayConfig} {env : Environment}

def setting (c : GatewayConfig) : (v : Variable) → v.Value
  | .scheduler => c.admission.scheduler.kind
  | .agingCapSecs => c.admission.scheduler.agingCapSecs
  | .decisionWindowSecs => c.admission.capacity.decisionWindowSecs
  | .retentionSecs => c.admission.capacity.retentionSecs
  | .maxSamples => c.admission.capacity.maxSamples
  | .breakerTrip => c.admission.breaker.tripThreshold
  | .breakerTimeoutSecs => c.admission.breaker.openTimeoutSecs
  | .breakerSuccesses => c.admission.breaker.successThreshold
  | .executionMode => c.execution.mode
  | .simMinLatencyMs => c.execution.simulator.minLatencyMs
  | .simMaxLatencyMs => c.execution.simulator.maxLatencyMs
  | .simFailureRate => c.execution.simulator.failureRate
  | .shutdownTimeout => c.shutdownTimeoutSecs
  | .eventBuffer => c.admission.eventBuffer
  | .logFormat => c.logging.format
  | .logLevel => c.logging.level

/-- The configurations differ at most in settings that have variables. -/
structure SameButSettings (c d : GatewayConfig) : Prop where
  policy : d.admission.scheduler.policy = c.admission.scheduler.policy
  fixedLimits : d.admission.scheduler.fixedLimits = c.admission.scheduler.fixedLimits
  thresholds : d.admission.capacity.thresholds = c.admission.capacity.thresholds
  fallbackConcurrency :
    d.admission.capacity.fallbackConcurrency = c.admission.capacity.fallbackConcurrency
  errorThreshold : d.admission.breaker.errorThreshold = c.admission.breaker.errorThreshold
  health : d.admission.health = c.admission.health
  statsRetentionSecs : d.admission.statsRetentionSecs = c.admission.statsRetentionSecs
  completionTokens :
    d.execution.simulator.completionTokens = c.execution.simulator.completionTokens
  outputPath : d.logging.outputPath = c.logging.outputPath

/-- The settings and the rest make up the configuration. -/
theorem ext_settings (h : ∀ v, c.setting v = d.setting v) (rest : c.SameButSettings d) :
    c = d := by
  obtain ⟨⟨⟨_, _, _, _⟩, ⟨_, _, _, _, _⟩, ⟨_, _, _, _⟩, _, _, _⟩, ⟨_, ⟨_, _, _, _⟩⟩, ⟨_, _, _⟩,
    _⟩ := c
  obtain ⟨⟨⟨_, _, _, _⟩, ⟨_, _, _, _, _⟩, ⟨_, _, _, _⟩, _, _, _⟩, ⟨_, ⟨_, _, _, _⟩⟩, ⟨_, _, _⟩,
    _⟩ := d
  obtain ⟨rfl, rfl, rfl, rfl, rfl, rfl, rfl, rfl, rfl⟩ := rest
  cases h .scheduler; cases h .agingCapSecs; cases h .decisionWindowSecs; cases h .retentionSecs
  cases h .maxSamples; cases h .breakerTrip; cases h .breakerTimeoutSecs; cases h .breakerSuccesses
  cases h .executionMode; cases h .simMinLatencyMs; cases h .simMaxLatencyMs
  cases h .simFailureRate; cases h .shutdownTimeout; cases h .eventBuffer; cases h .logFormat
  cases h .logLevel
  rfl

/-- Laying an environment over a configuration gives every setting the value of its variable. -/
theorem setting_overlay (b : GatewayConfig) (env : Environment) (v : Variable) :
    (b.overlay env).setting v = (env.value? v).getD (b.setting v) := by
  cases v <;> rfl

end GatewayConfig

/-! ### Bounds -/

/-- A whole number with a floor. -/
inductive Bounded where
  | agingCapSecs
  | fixedLimit (t : Tier)
  | decisionWindowSecs
  | retentionSecs
  | maxSamples
  | fallbackConcurrency
  | breakerTrip
  | breakerTimeoutSecs
  | breakerSuccesses
  | eventBuffer
  | statsRetentionSecs
  | simMaxLatencyMs
  | shutdownTimeoutSecs
deriving DecidableEq, Repr

namespace GatewayConfig

variable {b c d : GatewayConfig} {env : Environment}

def count (c : GatewayConfig) : Bounded → Nat
  | .agingCapSecs => c.admission.scheduler.agingCapSecs
  | .fixedLimit t => c.admission.scheduler.fixedLimits.get t
  | .decisionWindowSecs => c.admission.capacity.decisionWindowSecs
  | .retentionSecs => c.admission.capacity.retentionSecs
  | .maxSamples => c.admission.capacity.maxSamples
  | .fallbackConcurrency => c.admission.capacity.fallbackConcurrency
  | .breakerTrip => c.admission.breaker.tripThreshold
  | .breakerTimeoutSecs => c.admission.breaker.openTimeoutSecs
  | .breakerSuccesses => c.admission.breaker.successThreshold
  | .eventBuffer => c.admission.eventBuffer
  | .statsRetentionSecs => c.admission.statsRetentionSecs
  | .simMaxLatencyMs => c.execution.simulator.maxLatencyMs
  | .shutdownTimeoutSecs => c.shutdownTimeoutSecs

def floor (c : GatewayConfig) : Bounded → Nat
  | .retentionSecs => c.admission.capacity.decisionWindowSecs
  | .simMaxLatencyMs => c.execution.simulator.minLatencyMs
  | .statsRetentionSecs => 60
  | .agingCapSecs | .fixedLimit _ | .decisionWindowSecs | .maxSamples | .fallbackConcurrency
  | .breakerTrip | .breakerTimeoutSecs | .breakerSuccesses | .eventBuffer
  | .shutdownTimeoutSecs => 1

/-- What is overridden and then clamped stays when both are done again. -/
theorem clamp_getD_idem {α : Type} {f : α → α} (hf : ∀ a, f (f a) = f a) (o : Option α) (a : α) :
    f (o.getD (f (o.getD a))) = f (o.getD a) := by
  cases o with
  | none => exact hf a
  | some x => rfl

/-- The environment and the bounds leave what they made as it is. -/
theorem sanitized_overlay_idem (b : GatewayConfig) (env : Environment) :
    ((b.overlay env).sanitized.overlay env).sanitized = (b.overlay env).sanitized := by
  have hfree (v : Variable) (x : v.Value) :
      (env.value? v).getD ((env.value? v).getD x) = (env.value? v).getD x :=
    clamp_getD_idem (f := id) (fun _ => rfl) _ x
  have hmax (floor n : Nat) : max (max n floor) floor = max n floor := by
    rw [max_assoc, max_self]
  have hraised (o : Option Nat) (floor n : Nat) :
      max (o.getD (max (o.getD n) floor)) floor = max (o.getD n) floor :=
    clamp_getD_idem (f := (max · floor)) (hmax floor) o n
  refine ext_settings (fun v => ?_) ?_
  · cases v with
    | scheduler => exact hfree .scheduler _
    | agingCapSecs => exact hraised (env.value? .agingCapSecs) 1 _
    | decisionWindowSecs => exact hraised (env.value? .decisionWindowSecs) 1 _
    | retentionSecs =>
      refine Eq.trans ?_ (hraised (env.value? .retentionSecs) _ _)
      exact congrArg (fun floor : Nat => max _ floor) (hraised (env.value? .decisionWindowSecs) 1 _)
    | maxSamples => exact hraised (env.value? .maxSamples) 1 _
    | breakerTrip => exact hraised (env.value? .breakerTrip) 1 _
    | breakerTimeoutSecs => exact hraised (env.value? .breakerTimeoutSecs) 1 _
    | breakerSuccesses => exact hraised (env.value? .breakerSuccesses) 1 _
    | executionMode => exact hfree .executionMode _
    | simMinLatencyMs => exact hfree .simMinLatencyMs _
    | simMaxLatencyMs =>
      refine Eq.trans ?_ (hraised (env.value? .simMaxLatencyMs) _ _)
      exact congrArg (fun floor : Nat => max _ floor) (hfree .simMinLatencyMs _)
    | simFailureRate => exact clamp_getD_idem clampUnit_clampUnit (env.value? .simFailureRate) _
    | shutdownTimeout => exact hraised (env.value? .shutdownTimeout) 1 _
    | eventBuffer => exact hraised (env.value? .eventBuffer) 1 _
    | logFormat => exact hfree .logFormat _
    | logLevel => exact hfree .logLevel _
  · refine ⟨rfl, PerTier.ext_get fun t => ?_, rfl, (hmax 1 _).symm, rfl, rfl, (hmax 60 _).symm, rfl,
      rfl⟩
    have hlimit (limits : PerTier Nat) :
        (limits.map fun _ n => max n 1).get t = max (limits.get t) 1 := PerTier.get_map _ _ t
    have honce := hlimit b.admission.scheduler.fixedLimits
    exact honce.trans ((hmax 1 _).symm.trans ((congrArg (max · 1) honce).symm.trans
      (hlimit _).symm))

end GatewayConfig

end TieredAdmission

import TieredAdmission.CommandLine
import TieredAdmission.Proofs.Config.Settings
import TieredAdmission.Proofs.Decimal.Layout

/-!
# Setting the environment to a listing

Under the values that are listed for a configuration, every variable reads the setting it was listed
for: words are the ones that are read, and counts fit into the word they are read into, wherever
they came from. A configuration that was clamped already is not changed by being clamped again. What
is printed are these values, each on a line after the name of its variable, and the text says which
they are: only the last one may have lines of its own.
-/

namespace TieredAdmission

open Double

/-! ### Counts fit into words -/

private theorem Datum.lt_of_natBelow? {limit n : Nat} {d : Datum} (h : d.natBelow? limit = some n) :
    n < limit := by
  unfold natBelow? at h
  split at h
  · obtain ⟨⟨h0, hlt⟩, hn⟩ := Option.ite_none_right_eq_some.1 h
    obtain rfl := Option.some.inj hn
    exact (Int.toNat_lt h0).2 hlt
  · cases h

/-- What a part is read to, or the value for a part that is left out. -/
theorem optional_of {α : Type} {parts : String → Option Datum} {name : String}
    {read : Datum → Option α} {default a : α} (p : α → Prop) (hdefault : p default)
    (hread : ∀ d a, read d = some a → p a) (h : optional parts name read default = some a) :
    p a := by
  unfold optional at h
  split at h
  · cases h
    exact hdefault
  · exact hread _ _ h

theorem optional_word64?_lt {parts : String → Option Datum} {name : String} {default n : Nat}
    (hdefault : default < Word.limit64) (h : optional parts name Datum.word64? default = some n) :
    n < Word.limit64 :=
  optional_of (· < Word.limit64) hdefault (fun _ _ => Datum.lt_of_natBelow?) h

private theorem optional_word32?_lt {parts : String → Option Datum} {name : String}
    {default n : Nat}
    (hdefault : default < Word.limit32) (h : optional parts name Datum.word32? default = some n) :
    n < Word.limit32 :=
  optional_of (· < Word.limit32) hdefault (fun _ _ => Datum.lt_of_natBelow?) h

namespace Variable

/-- A count fits into the word that its variable is read into. -/
def Fits : (v : Variable) → v.Value → Prop
  | breakerTrip | breakerSuccesses => fun n : Nat => n < Word.limit32
  | agingCapSecs | decisionWindowSecs | retentionSecs | maxSamples | breakerTimeoutSecs
  | simMinLatencyMs | simMaxLatencyMs | shutdownTimeout | eventBuffer =>
    fun n : Nat => n < Word.limit64
  | scheduler | executionMode | simFailureRate | logFormat | logLevel => fun _ => True

private theorem fits_of_read {v : Variable} {s : String} {x : v.Value} (h : v.read s = some x) :
    v.Fits x := by
  cases v with
  | scheduler | executionMode | simFailureRate | logFormat | logLevel => exact trivial
  | _ => exact Decimal.lt_of_count? h

end Variable

/-! ### Counts in files

Of a part of the configuration `Fits` says that the counts which have variables fit.
-/

section Reading

variable {dialect : Dialect} {d : Datum}

structure SchedulerConfig.Fits (c : SchedulerConfig) : Prop where
  agingCapSecs : c.agingCapSecs < Word.limit64

theorem SchedulerConfig.fits_of_ofDatum? {c : SchedulerConfig}
    (h : ofDatum? dialect d = some c) : c.Fits := by
  simp only [ofDatum?, Option.bind_eq_bind, Option.bind_eq_some_iff, Option.pure_def,
    Option.some.injEq] at h
  obtain ⟨parts, -, kind, -, agingCap, hagingCap, policy, -, limits, -, rfl⟩ := h
  exact ⟨optional_word64?_lt (by decide) hagingCap⟩

structure CapacityConfig.Fits (c : CapacityConfig) : Prop where
  decisionWindowSecs : c.decisionWindowSecs < Word.limit64
  retentionSecs : c.retentionSecs < Word.limit64
  maxSamples : c.maxSamples < Word.limit64

theorem CapacityConfig.fits_of_ofDatum? {c : CapacityConfig} (h : ofDatum? dialect d = some c) :
    c.Fits := by
  simp only [ofDatum?, Option.bind_eq_bind, Option.bind_eq_some_iff, Option.pure_def,
    Option.some.injEq] at h
  obtain ⟨parts, -, window, hwindow, retention, hretention, samples, hsamples, thresholds, -,
    fallback, -, rfl⟩ := h
  exact ⟨optional_word64?_lt (by decide) hwindow, optional_word64?_lt (by decide) hretention,
    optional_word64?_lt (by decide) hsamples⟩

structure BreakerConfig.Fits (c : BreakerConfig) : Prop where
  tripThreshold : c.tripThreshold < Word.limit32
  openTimeoutSecs : c.openTimeoutSecs < Word.limit64
  successThreshold : c.successThreshold < Word.limit32

theorem BreakerConfig.fits_of_ofDatum? {c : BreakerConfig} (h : ofDatum? dialect d = some c) :
    c.Fits := by
  simp only [ofDatum?, Option.bind_eq_bind, Option.bind_eq_some_iff, Option.pure_def,
    Option.some.injEq] at h
  obtain ⟨parts, -, trip, htrip, timeout, htimeout, successes, hsuccesses, errors, -, rfl⟩ := h
  exact ⟨optional_word32?_lt (by decide) htrip, optional_word64?_lt (by decide) htimeout,
    optional_word32?_lt (by decide) hsuccesses⟩

structure AdmissionConfig.Fits (c : AdmissionConfig) : Prop where
  scheduler : c.scheduler.Fits
  capacity : c.capacity.Fits
  breaker : c.breaker.Fits
  eventBuffer : c.eventBuffer < Word.limit64

theorem AdmissionConfig.fits_default : Fits {} :=
  ⟨⟨by decide⟩, ⟨by decide, by decide, by decide⟩, ⟨by decide, by decide, by decide⟩, by decide⟩

theorem AdmissionConfig.fits_of_ofDatum? {c : AdmissionConfig} (h : ofDatum? dialect d = some c) :
    c.Fits := by
  simp only [ofDatum?, Option.bind_eq_bind, Option.bind_eq_some_iff, Option.pure_def,
    Option.some.injEq] at h
  obtain ⟨parts, -, scheduler, hscheduler, capacity, hcapacity, breaker, hbreaker, health, -,
    buffer, hbuffer, retention, -, rfl⟩ := h
  have hdefault := fits_default
  exact
    { scheduler := optional_of _ hdefault.scheduler (fun _ _ => SchedulerConfig.fits_of_ofDatum?)
        hscheduler
      capacity := optional_of _ hdefault.capacity (fun _ _ => CapacityConfig.fits_of_ofDatum?)
        hcapacity
      breaker := optional_of _ hdefault.breaker (fun _ _ => BreakerConfig.fits_of_ofDatum?)
        hbreaker
      eventBuffer := optional_word64?_lt hdefault.eventBuffer hbuffer }

structure SimulatorConfig.Fits (c : SimulatorConfig) : Prop where
  minLatencyMs : c.minLatencyMs < Word.limit64
  maxLatencyMs : c.maxLatencyMs < Word.limit64

theorem SimulatorConfig.fits_of_ofDatum? {c : SimulatorConfig} (h : ofDatum? dialect d = some c) :
    c.Fits := by
  simp only [ofDatum?, Option.bind_eq_bind, Option.bind_eq_some_iff, Option.pure_def,
    Option.some.injEq] at h
  obtain ⟨parts, -, low, hlow, high, hhigh, rate, -, tokens, -, rfl⟩ := h
  exact ⟨optional_word64?_lt (by decide) hlow, optional_word64?_lt (by decide) hhigh⟩

theorem ExecutionConfig.fits_of_ofDatum? {c : ExecutionConfig} (h : ofDatum? dialect d = some c) :
    c.simulator.Fits := by
  simp only [ofDatum?, Option.bind_eq_bind, Option.bind_eq_some_iff, Option.pure_def,
    Option.some.injEq] at h
  obtain ⟨parts, -, mode, -, simulator, hsimulator, rfl⟩ := h
  exact optional_of _ ⟨by decide, by decide⟩ (fun _ _ => SimulatorConfig.fits_of_ofDatum?)
    hsimulator

end Reading

namespace GatewayConfig

variable {b c : GatewayConfig} {env : Environment} {fs : FileSystem} {dialect : Dialect} {d : Datum}

def Fits (c : GatewayConfig) : Prop := ∀ v : Variable, v.Fits (c.setting v)

theorem fits_default : Fits {} := by
  intro v
  cases v with
  | scheduler | executionMode | simFailureRate | logFormat | logLevel => exact trivial
  | _ => exact Nat.le_of_ble_eq_true rfl

theorem fits_of_ofDatum? (h : ofDatum? dialect d = some c) : c.Fits := by
  simp only [ofDatum?, Option.bind_eq_bind, Option.bind_eq_some_iff, Option.pure_def,
    Option.some.injEq] at h
  obtain ⟨parts, -, admission, hadmission, execution, hexecution, logging, -, shutdown, hshutdown,
    rfl⟩ := h
  have ha : admission.Fits :=
    optional_of _ AdmissionConfig.fits_default (fun _ _ => AdmissionConfig.fits_of_ofDatum?)
      hadmission
  have he : execution.simulator.Fits :=
    optional_of (·.simulator.Fits) ⟨by decide, by decide⟩
      (fun _ _ => ExecutionConfig.fits_of_ofDatum?) hexecution
  intro v
  cases v with
  | scheduler | executionMode | simFailureRate | logFormat | logLevel => exact trivial
  | agingCapSecs => exact ha.scheduler.agingCapSecs
  | decisionWindowSecs => exact ha.capacity.decisionWindowSecs
  | retentionSecs => exact ha.capacity.retentionSecs
  | maxSamples => exact ha.capacity.maxSamples
  | breakerTrip => exact ha.breaker.tripThreshold
  | breakerTimeoutSecs => exact ha.breaker.openTimeoutSecs
  | breakerSuccesses => exact ha.breaker.successThreshold
  | simMinLatencyMs => exact he.minLatencyMs
  | simMaxLatencyMs => exact he.maxLatencyMs
  | shutdownTimeout => exact optional_word64?_lt (by decide) hshutdown
  | eventBuffer => exact ha.eventBuffer

private theorem fits_of_base (h : base env fs = .ok b) : b.Fits := by
  unfold base at h
  split at h
  · cases h
    exact fits_default
  · unfold ofFile at h
    split at h
    · cases h
    · split at h
      · cases h
      · split at h
        · cases h
        · next hread =>
          cases h
          obtain ⟨d, -, hd⟩ := Option.bind_eq_some_iff.1 hread
          exact fits_of_ofDatum? hd

theorem Fits.overlay (h : b.Fits) (env : Environment) : (b.overlay env).Fits := by
  intro v
  rw [setting_overlay]
  cases hv : env.value? v with
  | none => exact h v
  | some x =>
    obtain ⟨s, -, hread⟩ := Environment.value?_eq_some_iff.1 hv
    exact Variable.fits_of_read hread

theorem Fits.sanitized (h : c.Fits) : c.sanitized.Fits := by
  have h32 : 1 < Word.limit32 := by decide
  have h64 : 1 < Word.limit64 := by decide
  intro v
  cases v with
  | scheduler | executionMode | simFailureRate | logFormat | logLevel => exact trivial
  | agingCapSecs => exact max_lt (h .agingCapSecs) h64
  | decisionWindowSecs => exact max_lt (h .decisionWindowSecs) h64
  | retentionSecs => exact max_lt (h .retentionSecs) (max_lt (h .decisionWindowSecs) h64)
  | maxSamples => exact max_lt (h .maxSamples) h64
  | breakerTrip => exact max_lt (h .breakerTrip) h32
  | breakerTimeoutSecs => exact max_lt (h .breakerTimeoutSecs) h64
  | breakerSuccesses => exact max_lt (h .breakerSuccesses) h32
  | simMinLatencyMs => exact h .simMinLatencyMs
  | simMaxLatencyMs => exact max_lt (h .simMaxLatencyMs) (h .simMinLatencyMs)
  | shutdownTimeout => exact max_lt (h .shutdownTimeout) h64
  | eventBuffer => exact max_lt (h .eventBuffer) h64

theorem fits_of_load (h : load env fs = .ok c) : c.Fits := by
  obtain ⟨b, hb, rfl⟩ := exists_base h
  exact ((fits_of_base hb).overlay env).sanitized

end GatewayConfig

/-! ### Reading what is listed -/

/-- The text under which a value of a variable is listed. -/
def Variable.listed : (v : Variable) → v.Value → String
  | scheduler => SchedulerKind.name
  | executionMode => ExecutionMode.name
  | simFailureRate => Decimal.FloatStyle.plainDecimal.text
  | logFormat => LogFormat.name
  | logLevel => id
  | agingCapSecs | decisionWindowSecs | retentionSecs | maxSamples | breakerTrip
  | breakerTimeoutSecs | breakerSuccesses | simMinLatencyMs | simMaxLatencyMs | shutdownTimeout
  | eventBuffer => Decimal.text

theorem SchedulerKind.parse_name (k : SchedulerKind) :
    (parse (Text.trim k.name)).toOption = some k := by
  cases k <;> decide +kernel

theorem ExecutionMode.parse_name (m : ExecutionMode) :
    (parse (Text.trim m.name)).toOption = some m := by
  cases m <;> decide +kernel

theorem LogFormat.parse_name (f : LogFormat) : (parse (Text.trim f.name)).toOption = some f := by
  cases f <;> decide +kernel

/-! ### Characters of what is listed -/

/-- A character in front of the blank. -/
def isControl (c : Char) : Bool := decide (c.toNat < 32)

theorem SchedulerKind.any_isControl_name (k : SchedulerKind) :
    k.name.toList.any isControl = false := by
  cases k <;> decide +kernel

theorem ExecutionMode.any_isControl_name (m : ExecutionMode) :
    m.name.toList.any isControl = false := by
  cases m <;> decide +kernel

theorem LogFormat.any_isControl_name (f : LogFormat) : f.name.toList.any isControl = false := by
  cases f <;> decide +kernel

private theorem Decimal.isControl_of_isPlain {c : Char} (h : isPlain c = true) :
    isControl c = false := by
  rw [isPlain, Bool.or_eq_true, Bool.or_eq_true, beq_iff_eq, beq_iff_eq] at h
  obtain (h | rfl) | rfl := h
  · simp only [isDigit, Bool.and_eq_true, decide_eq_true_eq, Char.le_def] at h
    have hdigit : 48 ≤ c.toNat := UInt32.le_iff_toNat_le.1 h.1
    exact decide_eq_false (by omega)
  · rfl
  · rfl

private theorem Text.zero_mem_toUTF8 {s : String} (h : '\x00' ∈ s.toList) : 0 ∈ s.toUTF8.data := by
  change 0 ∈ s.toByteArray.data
  rw [← String.utf8Encode_toList, List.utf8Encode, List.data_toByteArray, List.mem_toArray]
  exact List.mem_flatMap.2 ⟨'\x00', h, by decide⟩

namespace GatewayConfig

variable {b c : GatewayConfig} {env : Environment} {fs : FileSystem}

theorem value_effective (c : GatewayConfig) (v : Variable) :
    c.effective.value v = v.listed (c.setting v) := by
  cases v <;> rfl

/-- What the listing shows depends on the settings only. -/
theorem effective_congr (h : ∀ v, b.setting v = c.setting v) : b.effective = c.effective := by
  simp only [effective, EffectiveConfig.mk.injEq]
  exact ⟨h .scheduler, h .agingCapSecs, h .decisionWindowSecs, h .retentionSecs, h .maxSamples,
    h .breakerTrip, h .breakerTimeoutSecs, h .breakerSuccesses, h .executionMode,
    h .simMinLatencyMs, h .simMaxLatencyMs, h .simFailureRate, h .shutdownTimeout, h .eventBuffer,
    h .logFormat, h .logLevel⟩

/-- How settings are clamped depends on the settings only. -/
theorem setting_sanitized_congr (h : ∀ v, b.setting v = c.setting v) (v : Variable) :
    b.sanitized.setting v = c.sanitized.setting v := by
  have hmax {n n' k k' : Nat} (hn : n = n') (hk : k = k') : max n k = max n' k' := by rw [hn, hk]
  have hraise {n n' : Nat} (hn : n = n') : max n 1 = max n' 1 := hmax hn rfl
  cases v with
  | scheduler => exact h .scheduler
  | executionMode => exact h .executionMode
  | logFormat => exact h .logFormat
  | logLevel => exact h .logLevel
  | simFailureRate => exact congrArg clampUnit (h .simFailureRate)
  | agingCapSecs => exact hraise (h .agingCapSecs)
  | decisionWindowSecs => exact hraise (h .decisionWindowSecs)
  | retentionSecs => exact hmax (h .retentionSecs) (hraise (h .decisionWindowSecs))
  | maxSamples => exact hraise (h .maxSamples)
  | breakerTrip => exact hraise (h .breakerTrip)
  | breakerTimeoutSecs => exact hraise (h .breakerTimeoutSecs)
  | breakerSuccesses => exact hraise (h .breakerSuccesses)
  | simMinLatencyMs => exact h .simMinLatencyMs
  | simMaxLatencyMs => exact hmax (h .simMaxLatencyMs) (h .simMinLatencyMs)
  | shutdownTimeout => exact hraise (h .shutdownTimeout)
  | eventBuffer => exact hraise (h .eventBuffer)

private theorem sanitized_sanitized (c : GatewayConfig) : c.sanitized.sanitized = c.sanitized :=
  sanitized_overlay_idem c .empty

/-- A clamped configuration is in effect again under an environment with its settings. -/
theorem effective_overlay_of_value {env : Environment}
    (h : ∀ v, env.value? v = some (c.sanitized.setting v)) :
    (b.overlay env).sanitized.effective = c.sanitized.effective := by
  have hoverlay (v : Variable) : (b.overlay env).setting v = c.sanitized.setting v := by
    rw [setting_overlay, h, Option.getD_some]
  rw [← sanitized_sanitized c]
  exact effective_congr (setting_sanitized_congr hoverlay)

theorem read_listed (hfits : c.Fits)
    (hfinite : Decimal.isFinite c.execution.simulator.failureRate = true)
    (hrate : Decimal.float? (Decimal.FloatStyle.plainDecimal.text
      c.execution.simulator.failureRate) = some c.execution.simulator.failureRate)
    (hlevel : c.logging.level ≠ "") (htrim : Text.trim c.logging.level = c.logging.level)
    (v : Variable) : v.read (Text.trim (v.listed (c.setting v))) = some (c.setting v) := by
  have h64 {n : Nat} (h : n < Word.limit64) :
      Decimal.word64? (Text.trim (Decimal.text n)) = some n := by
    rw [Decimal.trim_text, Decimal.word64?_text h]
  have h32 {n : Nat} (h : n < Word.limit32) :
      Decimal.word32? (Text.trim (Decimal.text n)) = some n := by
    rw [Decimal.trim_text, Decimal.word32?_text h]
  cases v with
  | scheduler => exact SchedulerKind.parse_name c.admission.scheduler.kind
  | executionMode => exact ExecutionMode.parse_name c.execution.mode
  | logFormat => exact LogFormat.parse_name c.logging.format
  | simFailureRate =>
    refine finiteFloat?_eq_some_iff.2 ⟨?_, hfinite⟩
    exact (congrArg Decimal.float? (Decimal.trim_text_of_isFinite hfinite)).trans hrate
  | logLevel => exact nonempty?_eq_some_iff.2 ⟨fun h => hlevel (htrim.symm.trans h), htrim.symm⟩
  | breakerTrip => exact h32 (hfits .breakerTrip)
  | breakerSuccesses => exact h32 (hfits .breakerSuccesses)
  | agingCapSecs => exact h64 (hfits .agingCapSecs)
  | decisionWindowSecs => exact h64 (hfits .decisionWindowSecs)
  | retentionSecs => exact h64 (hfits .retentionSecs)
  | maxSamples => exact h64 (hfits .maxSamples)
  | breakerTimeoutSecs => exact h64 (hfits .breakerTimeoutSecs)
  | simMinLatencyMs => exact h64 (hfits .simMinLatencyMs)
  | simMaxLatencyMs => exact h64 (hfits .simMaxLatencyMs)
  | shutdownTimeout => exact h64 (hfits .shutdownTimeout)
  | eventBuffer => exact h64 (hfits .eventBuffer)

/-! ### Texts that can be variables -/

/-- No value but the level has control characters. -/
theorem any_isControl_listed
    (hrate : Decimal.isFinite c.execution.simulator.failureRate = true ∨
      c.execution.simulator.failureRate = Float.nan) {v : Variable} (hv : v ≠ .logLevel) :
    (v.listed (c.setting v)).toList.any isControl = false := by
  have hplain {s : String} (h : ∀ x ∈ s.toList, Decimal.isPlain x = true) :
      s.toList.any isControl = false :=
    List.any_eq_false.2 fun x hx => by simp [Decimal.isControl_of_isPlain (h x hx)]
  have hcount (n : Nat) : (Decimal.text n).toList.any isControl = false := by
    refine hplain fun x hx => ?_
    rw [Decimal.text, String.toList_ofList] at hx
    exact Decimal.isPlain_of_isDigit (Decimal.isDigit_of_mem_digits hx)
  cases v with
  | scheduler => exact SchedulerKind.any_isControl_name c.admission.scheduler.kind
  | executionMode => exact ExecutionMode.any_isControl_name c.execution.mode
  | logFormat => exact LogFormat.any_isControl_name c.logging.format
  | simFailureRate =>
    change (Decimal.FloatStyle.plainDecimal.text c.execution.simulator.failureRate).toList.any
      isControl = false
    rcases hrate with hfinite | hnan
    · exact hplain fun x => Decimal.isPlain_of_mem_text hfinite
    · rw [hnan]
      decide +kernel
  | logLevel => exact absurd rfl hv
  | _ => exact hcount _

/-- A control character can be in the level only. -/
theorem notMem_listed {x : Char} (hx : isControl x = true)
    (hrate : Decimal.isFinite c.execution.simulator.failureRate = true ∨
      c.execution.simulator.failureRate = Float.nan) {v : Variable} (hv : v ≠ .logLevel) :
    x ∉ (v.listed (c.setting v)).toList :=
  fun hmem => List.any_eq_false.1 (any_isControl_listed hrate hv) x hmem hx

private theorem nul_notMem_listed
    (hfinite : Decimal.isFinite c.execution.simulator.failureRate = true)
    (hlevel : '\x00' ∉ c.logging.level.toList) (v : Variable) :
    '\x00' ∉ (v.listed (c.setting v)).toList := by
  by_cases hv : v = .logLevel
  · subst hv
    exact hlevel
  · exact notMem_listed rfl (.inl hfinite) hv

/-- Without a file the level is the default one or a text that a variable holds, trimmed. -/
theorem level_of_load (hpath : env.configPath? = none) (h : load env fs = .ok c)
    (hnul : ∀ bytes, env.bytes? Variable.logLevel.name = some bytes → 0 ∉ bytes.data) :
    c.logging.level ≠ "" ∧ Text.trim c.logging.level = c.logging.level ∧
      '\x00' ∉ c.logging.level.toList := by
  obtain ⟨b, hb, rfl⟩ := exists_base h
  rw [base, hpath] at hb
  cases hb
  change let level := (({} : GatewayConfig).overlay env).setting .logLevel
    level ≠ "" ∧ Text.trim level = level ∧ '\x00' ∉ level.toList
  rw [setting_overlay]
  cases hv : env.value? .logLevel with
  | none =>
    have hinfo : "info" ≠ "" ∧ Text.trim "info" = "info" ∧ '\x00' ∉ "info".toList := by
      decide +kernel
    exact hinfo
  | some x =>
    obtain ⟨s, hs, hread⟩ := Environment.value?_eq_some_iff.1 hv
    obtain ⟨hne, rfl⟩ := nonempty?_eq_some_iff.1 hread
    exact ⟨hne, Text.trim_trim s,
      fun h => hnul _ hs (Text.zero_mem_toUTF8 (Text.mem_of_mem_trim h))⟩

private theorem rate_ne_nan_of_load (hpath : env.configPath? = none) (h : load env fs = .ok c) :
    c.execution.simulator.failureRate ≠ Float.nan := by
  obtain ⟨b, hb, rfl⟩ := exists_base h
  intro hrate
  obtain ⟨hwritten, -⟩ := (override_eq_nan_iff _).1 (clampUnit_eq_nan_iff.1 hrate)
  obtain ⟨path, -, hsome, -⟩ := (base_rate_eq_nan_iff hb).1 hwritten
  rw [hpath] at hsome
  cases hsome

private theorem isFinite_rate_of_load (h : load env fs = .ok c)
    (hrate : c.execution.simulator.failureRate ≠ Float.nan) :
    Decimal.isFinite c.execution.simulator.failureRate = true := by
  obtain ⟨b, hb, rfl⟩ := exists_base h
  obtain ⟨a, ha, -⟩ := isProbability_clampUnit (mt clampUnit_eq_nan_iff.2 hrate)
  exact Decimal.isFinite_of_value ha

/-! ### What is printed -/

/-- The text of one line for each variable, with its value after its name. Only the last value, the
level, may go over several lines. -/
structure Lists (text : String) (value : Variable → String) : Prop where
  lines : text = String.join (Variable.all.map fun v => v.name ++ "=" ++ value v ++ "\n")
  oneLine : ∀ v ≠ .logLevel, '\n' ∉ (value v).toList

/-- The characters of the lines of some variables. -/
private def lineChars (value : Variable → String) (vs : List Variable) : List Char :=
  vs.flatMap fun v => v.name.toList ++ '=' :: ((value v).toList ++ ['\n'])

private theorem Lists.toList {text : String} {value : Variable → String} (h : Lists text value) :
    text.toList = lineChars value Variable.all := by
  rw [h.lines, String.toList_join, List.flatMap_map, lineChars]
  refine List.flatMap_congr fun v _ => ?_
  simp

/-- The part in front of the first end of a line. -/
private theorem eq_of_append_cons_eq {x : Char} {cs cs' ds ds' : List Char} (h : x ∉ cs)
    (h' : x ∉ cs') (heq : cs ++ x :: ds = cs' ++ x :: ds') : cs = cs' ∧ ds = ds' := by
  induction cs generalizing cs' with
  | nil =>
    cases cs' with
    | nil => exact ⟨rfl, (List.cons.inj heq).2⟩
    | cons y ys => exact absurd ((List.cons.inj heq).1 ▸ List.mem_cons_self) h'
  | cons y ys ih =>
    cases cs' with
    | nil => exact absurd ((List.cons.inj heq).1 ▸ List.mem_cons_self) h
    | cons z zs =>
      obtain ⟨rfl, hrest⟩ := List.cons.inj heq
      obtain ⟨rfl, rfl⟩ := ih (fun hx => h (List.mem_cons_of_mem _ hx))
        (fun hx => h' (List.mem_cons_of_mem _ hx)) hrest
      exact ⟨rfl, rfl⟩

/-- Each value ends at the first end of a line, and the last one where the text does. -/
private theorem eq_of_lineChars_eq {value value' : Variable → String} {vs : List Variable}
    {last : Variable} (h : ∀ v ∈ vs, '\n' ∉ (value v).toList ∧ '\n' ∉ (value' v).toList)
    (heq : lineChars value (vs ++ [last]) = lineChars value' (vs ++ [last])) :
    ∀ v ∈ vs ++ [last], value v = value' v := by
  induction vs with
  | nil =>
    simp only [List.nil_append, lineChars, List.flatMap_singleton, List.append_cancel_left_eq,
      List.cons.injEq, true_and, List.append_cancel_right_eq, String.toList_inj] at heq
    simpa using heq
  | cons u us ih =>
    have hcons (value : Variable → String) : lineChars value (u :: us ++ [last]) =
        u.name.toList ++ '=' :: ((value u).toList ++ '\n' :: lineChars value (us ++ [last])) := by
      simp [lineChars]
    rw [hcons, hcons, List.append_cancel_left_eq, List.cons.injEq] at heq
    have hvalues := heq.2
    obtain ⟨hu, hu'⟩ := h u List.mem_cons_self
    generalize lineChars value (us ++ [last]) = cs at hvalues ih
    generalize lineChars value' (us ++ [last]) = cs' at hvalues ih
    obtain ⟨hvalue, hrest⟩ := eq_of_append_cons_eq hu hu' hvalues
    intro v hv
    rcases List.mem_cons.1 hv with rfl | hv
    · exact String.toList_inj.1 hvalue
    · exact ih (fun v hv => h v (List.mem_cons_of_mem _ hv)) hrest v hv

/-- A text lists no values but these. -/
theorem Lists.unique {text : String} {value value' : Variable → String} (h : Lists text value)
    (h' : Lists text value') : value = value' := by
  have hall : Variable.all = Variable.all.dropLast ++ [.logLevel] := rfl
  have heq : lineChars value Variable.all = lineChars value' Variable.all :=
    h.toList.symm.trans h'.toList
  rw [hall] at heq
  funext v
  refine eq_of_lineChars_eq (fun v hv => ?_) heq v (hall ▸ v.mem_all)
  have hne : v ≠ .logLevel := by
    rintro rfl
    exact absurd hv (by decide)
  exact ⟨h.oneLine v hne, h'.oneLine v hne⟩

/-! ### Reloading -/

theorem lists_effective (h : load env fs = .ok c) :
    Lists c.effective.listing c.effective.value where
  lines := rfl
  oneLine := by
    intro v hv
    rw [value_effective]
    refine notMem_listed rfl ?_ hv
    exact or_iff_not_imp_right.2 (isFinite_rate_of_load h)

/-- What is printed of a loaded configuration is a listing of the values in effect, and under the
values of any listing that reads so, with no file named, the same values are in effect again. This
asks for a rate that is a number and is read back from its text, and for a level that is not empty,
has no blanks around it and no NUL. Without a file the rate is a number and the level is of that
kind. -/
theorem load_listing (h : load env fs = .ok c)
    (draws : SimulatorConfig → Nat → Array Draw) :
    let printed := CommandLine.run ⟨env, fs, draws⟩ ["config", "show"]
    let rate := c.execution.simulator.failureRate
    let level := c.logging.level
    (printed.code = 0 ∧ printed.stderr = "" ∧ Lists printed.stdout c.effective.value) ∧
    (rate ≠ Float.nan →
      Decimal.float? (Decimal.FloatStyle.plainDecimal.text rate) = some rate →
      level ≠ "" → Text.trim level = level → '\x00' ∉ level.toList →
      ∀ value, Lists printed.stdout value →
        (∀ v, '\x00' ∉ (value v).toList) ∧
        ∀ env' fs', (∀ v : Variable, env'.bytes? v.name = some (value v).toUTF8) →
          env'.bytes? Variable.configPath = none →
          ∃ c', load env' fs' = .ok c' ∧ c'.effective = c.effective) ∧
    (env.configPath? = none →
      (∀ bytes, env.bytes? Variable.logLevel.name = some bytes → 0 ∉ bytes.data) →
      rate ≠ Float.nan ∧ level ≠ "" ∧ Text.trim level = level ∧ '\x00' ∉ level.toList) := by
  intro printed rate level
  have hprinted : printed = { stdout := c.effective.listing } := by
    change CommandLine.runShow ⟨env, fs, draws⟩ = _
    rw [CommandLine.runShow, h]
  have hlists : Lists printed.stdout c.effective.value := by
    rw [hprinted]
    exact lists_effective h
  refine ⟨⟨by rw [hprinted], by rw [hprinted], hlists⟩, fun hrate hread hlevel htrim hnul => ?_,
    fun hpath hnul => ⟨rate_ne_nan_of_load hpath h, level_of_load hpath h hnul⟩⟩
  intro value hvalue
  obtain rfl := hvalue.unique hlists
  have hfinite := isFinite_rate_of_load h hrate
  refine ⟨fun v => ?_, fun env' fs' hvalues hunset => ?_⟩
  · rw [value_effective]
    exact nul_notMem_listed hfinite hnul v
  · have hvalue (v : Variable) : env'.value? v = some (c.setting v) := by
      rw [Environment.value?_eq_some_iff]
      exact ⟨_, hvalues v, value_effective c v ▸ read_listed (fits_of_load h) hfinite hread hlevel
        htrim v⟩
    have hbase : base env' fs' = .ok {} := by
      rw [base, Environment.configPath?, Environment.text?, hunset]
      rfl
    refine ⟨_, load_eq_ok hbase, ?_⟩
    obtain ⟨b, -, rfl⟩ := exists_base h
    exact effective_overlay_of_value hvalue

theorem load_listing_quarter :
    let env := oneVariable "TIERGATE_SIM_FAILURE_RATE" "0.25"
    let c := (({} : GatewayConfig).overlay env).sanitized
    let printed := CommandLine.run ⟨env, ⟨fun _ => none, []⟩, fun _ _ => #[]⟩ ["config", "show"]
    let listed : Environment :=
      ⟨fun name => (Variable.ofName? name).map fun v => (c.effective.value v).toUTF8⟩
    load env ⟨fun _ => none, []⟩ = .ok c ∧ Lists printed.stdout c.effective.value ∧
      ∃ c', load listed ⟨fun _ => none, []⟩ = .ok c' ∧ c'.effective = c.effective := by
  intro env c printed listed
  have hpath : env.configPath? = none := by decide +kernel
  have hbase : base env ⟨fun _ => none, []⟩ = .ok {} := by rw [base, hpath]
  have hload : load env ⟨fun _ => none, []⟩ = .ok c := load_eq_ok hbase
  have hread : Decimal.float? (Decimal.FloatStyle.plainDecimal.text
      c.execution.simulator.failureRate) = some c.execution.simulator.failureRate := by
    decide +kernel
  obtain ⟨⟨-, -, hlists⟩, hreload, hkind⟩ := load_listing hload fun _ _ => #[]
  obtain ⟨hrate, hlevel, htrim, hnul⟩ := hkind hpath fun bytes hbytes => by cases hbytes
  obtain ⟨-, hagain⟩ := hreload hrate hread hlevel htrim hnul _ hlists
  refine ⟨hload, hlists, hagain listed _ (fun v => ?_) ?_⟩
  · simp only [listed, Variable.ofName?_name, Option.map_some]
  · rfl

end GatewayConfig

end TieredAdmission

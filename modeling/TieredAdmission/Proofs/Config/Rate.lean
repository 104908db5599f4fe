import TieredAdmission.Config.Load
import TieredAdmission.Simulation.Run
import TieredAdmission.Proofs.Double.Value

/-!
# The failure rate of the simulated backend

The rate comes from the defaults, the file or the environment and is clamped once. Clamping is made
of comparisons, and what is no number fails them all: it passes the clamp. The environment admits
finite rates only, but a file can write one that is no number, and with it every simulated call
panics.
-/

namespace TieredAdmission

open Float.Model

namespace Double

variable {x y : Float} {f g : UnpackedFloat}

/-! ### Comparisons -/

theorem eq_nan_iff : x = Float.nan ↔ x.toModel.unpack = .notANumber := by
  rw [← UnpackedFloat.isNaN_iff, ← decide_eq_true_iff (p := x = _), ← Float.isNaN_eq_decide_eq_nan]
  rfl

private theorem compare_isSome (hf : f ≠ .notANumber) (hg : g ≠ .notANumber) :
    (UnpackedFloat.compare f g).isSome = true := by
  fun_cases UnpackedFloat.compare f g with
  | case1 => exact absurd rfl hf
  | case2 => exact absurd rfl hg
  | _ => rfl

/-- Two doubles compare alike from either side. -/
theorem compare_swap (f g : UnpackedFloat) :
    UnpackedFloat.compare g f = (UnpackedFloat.compare f g).map Ordering.swap := by
  cases f with
  | notANumber => cases g <;> rfl
  | infinity s =>
    cases g with
    | infinity t => cases s <;> cases t <;> rfl
    | notANumber | zero | finite => cases s <;> rfl
  | zero s =>
    cases g with
    | infinity t => cases t <;> rfl
    | finite t m e hm => cases t <;> rfl
    | notANumber | zero => rfl
  | finite s m e hm =>
    cases g with
    | notANumber => rfl
    | infinity t => cases s <;> cases t <;> rfl
    | zero t => cases s <;> rfl
    | finite t m' e' hm' =>
      have hswap : (compare e' e).then (compare m' m) =
          ((compare e e').then (compare m m')).swap := by
        rw [Ordering.swap_then, ← Std.OrientedCmp.eq_swap, ← Std.OrientedCmp.eq_swap]
      cases s <;> cases t
      · exact congrArg (fun o : Ordering => some o.swap) hswap
      · rfl
      · rfl
      · exact congrArg some hswap

theorem le_iff_unpacked : x ≤ y ↔ UnpackedFloat.le x.toModel.unpack y.toModel.unpack = true := by
  change decide (x.toModel ≤ y.toModel) = true ↔ _
  rw [decide_eq_true_iff]
  rfl

theorem le_of_not_lt (hx : x ≠ Float.nan) (hy : y ≠ Float.nan) (h : ¬ y < x) : x ≤ y := by
  rw [lt_iff_unpacked, UnpackedFloat.lt, compare_swap] at h
  rw [le_iff_unpacked, UnpackedFloat.le]
  obtain ⟨o, ho⟩ := Option.isSome_iff_exists.1
    (compare_isSome (mt eq_nan_iff.2 hx) (mt eq_nan_iff.2 hy))
  rw [ho] at h ⊢
  cases o with
  | lt | eq => rfl
  | gt => exact absurd rfl h

theorem not_lt_of_le (h : x ≤ y) : ¬ y < x := by
  rw [le_iff_unpacked, UnpackedFloat.le] at h
  rw [lt_iff_unpacked, UnpackedFloat.lt, compare_swap]
  cases ho : UnpackedFloat.compare x.toModel.unpack y.toModel.unpack with
  | none => exact Bool.false_ne_true
  | some o =>
    rw [ho] at h
    cases o with
    | lt | eq => exact Bool.false_ne_true
    | gt => exact absurd h Bool.false_ne_true

theorem le_of_lt (h : x < y) : x ≤ y := by
  rw [lt_iff_unpacked, UnpackedFloat.lt] at h
  rw [le_iff_unpacked, UnpackedFloat.le]
  cases ho : UnpackedFloat.compare x.toModel.unpack y.toModel.unpack with
  | none =>
    rw [ho] at h
    exact absurd h Bool.false_ne_true
  | some o =>
    rw [ho] at h
    cases o with
    | lt => rfl
    | eq | gt => exact absurd h Bool.false_ne_true

theorem pos_of_one_le (h : 1.0 ≤ x) : 0.0 < x := by
  rw [le_iff_unpacked] at h
  rw [lt_iff_unpacked]
  cases hf : x.toModel.unpack with
  | notANumber | zero =>
    rw [hf] at h
    exact absurd h Bool.false_ne_true
  | infinity s | finite s =>
    rw [hf] at h
    cases s with
    | positive => rfl
    | negative => exact absurd h Bool.false_ne_true

private theorem not_nan_lt (y : Float) : ¬ Float.nan < y := by
  rw [lt_iff_unpacked, eq_nan_iff.1 rfl]
  exact Bool.false_ne_true

private theorem not_nan_le (y : Float) : ¬ Float.nan ≤ y := by
  rw [le_iff_unpacked, eq_nan_iff.1 rfl]
  exact Bool.false_ne_true

private theorem not_lt_nan (x : Float) : ¬ x < Float.nan := by
  rw [lt_iff_unpacked, UnpackedFloat.lt, compare_swap, eq_nan_iff.1 rfl]
  exact Bool.false_ne_true

private theorem ne_nan_of_isFinite (h : Decimal.isFinite x = true) : x ≠ Float.nan := by
  rintro rfl
  exact absurd h (by decide +kernel)

/-! ### Numbers from zero to one -/

def IsProbability (x : Float) : Prop := ∃ a, value? x = some a ∧ 0 ≤ a ∧ a ≤ 1

theorem value?_zero : value? 0.0 = some 0 := by decide +kernel

theorem value?_one : value? 1.0 = some 1 := by decide +kernel

theorem ne_nan_of_value {a : ℚ} (h : value? x = some a) : x ≠ Float.nan := by
  intro hx
  rw [value?, eq_nan_iff.1 hx] at h
  cases h

theorem le_iff {a b : ℚ} (hx : value? x = some a) (hy : value? y = some b) : x ≤ y ↔ a ≤ b := by
  rw [← not_lt, ← lt_iff hy hx]
  exact ⟨not_lt_of_le, le_of_not_lt (ne_nan_of_value hx) (ne_nan_of_value hy)⟩

theorem IsProbability.ne_nan (h : IsProbability x) : x ≠ Float.nan := by
  obtain ⟨a, ha, -⟩ := h
  exact ne_nan_of_value ha

theorem isProbability_iff : IsProbability x ↔ 0.0 ≤ x ∧ x ≤ 1.0 := by
  constructor
  · rintro ⟨a, ha, h0, h1⟩
    exact ⟨(le_iff value?_zero ha).2 h0, (le_iff ha value?_one).2 h1⟩
  · rintro ⟨h0, h1⟩
    obtain ⟨a, ha, hle⟩ := exists_value_of_not_lt value?_one h0 (not_lt_of_le h1)
    exact ⟨a, ha, value_nonneg h0 ha, hle⟩

private theorem isProbability_of_not_lt (hx : x ≠ Float.nan) (h0 : ¬ x < 0.0) (h1 : ¬ 1.0 < x) :
    IsProbability x :=
  isProbability_iff.2 ⟨le_of_not_lt (ne_nan_of_value value?_zero) hx h0,
    le_of_not_lt hx (ne_nan_of_value value?_one) h1⟩

/-- What is no number passes the clamp. -/
@[simp] theorem clampUnit_nan : clampUnit Float.nan = Float.nan := by
  rw [clampUnit, if_neg (not_nan_lt _), if_neg (not_lt_nan _)]

theorem isProbability_clampUnit (hx : x ≠ Float.nan) : IsProbability (clampUnit x) := by
  unfold clampUnit
  split
  · exact ⟨0, value?_zero, le_rfl, zero_le_one⟩
  · next h0 =>
    split
    · exact ⟨1, value?_one, zero_le_one, le_rfl⟩
    · next h1 => exact isProbability_of_not_lt hx h0 h1

theorem clampUnit_of_isProbability (hx : IsProbability x) : clampUnit x = x := by
  obtain ⟨h0, h1⟩ := isProbability_iff.1 hx
  rw [clampUnit, if_neg (not_lt_of_le h0), if_neg (not_lt_of_le h1)]

theorem value_clampUnit_eq_one_iff (hx : x ≠ Float.nan) :
    value? (clampUnit x) = some 1 ↔ 1.0 ≤ x := by
  unfold clampUnit
  split
  · next h0 =>
    have hone : ¬ 1.0 ≤ x := fun h => not_lt_of_le (le_of_lt (pos_of_one_le h)) h0
    simp [value?_zero, hone]
  · next h0 =>
    split
    · next h1 => simp [value?_one, le_of_lt h1]
    · next h1 =>
      obtain ⟨a, ha, -, hle⟩ := isProbability_of_not_lt hx h0 h1
      rw [ha, le_iff value?_one ha, Option.some.injEq]
      exact ⟨ge_of_eq, hle.antisymm⟩

theorem value_clampUnit_eq_zero_iff (hx : x ≠ Float.nan) :
    value? (clampUnit x) = some 0 ↔ x ≤ 0.0 := by
  unfold clampUnit
  split
  · next h0 => simp [value?_zero, le_of_lt h0]
  · next h0 =>
    split
    · next h1 =>
      have hzero : ¬ x ≤ 0.0 := fun h => not_lt_of_le h (pos_of_one_le (le_of_lt h1))
      simp [value?_one, hzero]
    · next h1 =>
      obtain ⟨a, ha, hnonneg, -⟩ := isProbability_of_not_lt hx h0 h1
      rw [ha, le_iff ha value?_zero, Option.some.injEq]
      exact ⟨le_of_eq, hnonneg.antisymm'⟩

@[simp] theorem clampUnit_eq_nan_iff : clampUnit x = Float.nan ↔ x = Float.nan := by
  refine ⟨fun h => ?_, fun h => by rw [h, clampUnit_nan]⟩
  by_contra hx
  exact (isProbability_clampUnit hx).ne_nan h

@[simp] theorem clampUnit_clampUnit (x : Float) : clampUnit (clampUnit x) = clampUnit x := by
  by_cases hx : x = Float.nan
  · rw [hx, clampUnit_nan, clampUnit_nan]
  · exact clampUnit_of_isProbability (isProbability_clampUnit hx)

end Double

open Double

theorem finiteFloat?_eq_some_iff {s : String} {x : Float} :
    finiteFloat? s = some x ↔ Decimal.float? s = some x ∧ Decimal.isFinite x = true := by
  simp only [finiteFloat?, Option.bind_eq_some_iff, Option.ite_none_right_eq_some,
    Option.some.injEq]
  constructor
  · rintro ⟨y, hy, hfinite, rfl⟩
    exact ⟨hy, hfinite⟩
  · rintro ⟨hx, hfinite⟩
    exact ⟨x, hx, hfinite, rfl⟩

/-! ### Draws -/

namespace SimulatorConfig

variable {c : SimulatorConfig}

theorem odds?_of_ne_nan (h : c.failureRate ≠ Float.nan) :
    c.odds? = some (clampUnit c.failureRate) :=
  if_pos (isProbability_iff.1 (isProbability_clampUnit h))

theorem odds?_of_isProbability (h : IsProbability c.failureRate) :
    c.odds? = some c.failureRate := by
  rw [odds?_of_ne_nan h.ne_nan, clampUnit_of_isProbability h]

theorem odds?_of_nan (h : c.failureRate = Float.nan) : c.odds? = none := by
  refine if_neg fun hodds => ?_
  rw [h, clampUnit_nan] at hodds
  exact (isProbability_iff.2 hodds).ne_nan rfl

/-- Chance has odds to settle a call by unless the rate is no number. -/
theorem odds?_eq_none_iff : c.odds? = none ↔ c.failureRate = Float.nan := by
  refine ⟨fun h => ?_, odds?_of_nan⟩
  by_contra hne
  rw [odds?_of_ne_nan hne] at h
  cases h

/-- Calls are certain to fail when the odds of it are one. -/
theorem certain?_eq_some_true_iff :
    c.certain? = some true ↔ ∃ p, c.odds? = some p ∧ value? p = some 1 := by
  have hcertain : c.certain? = some true ↔ 1.0 ≤ c.failureRate := by
    unfold certain?
    split_ifs with h1 h0 <;> simp [h1]
  rw [hcertain]
  by_cases hnan : c.failureRate = Float.nan
  · simp [odds?_of_nan hnan, hnan, mt pos_of_one_le (not_lt_nan _)]
  · simp [odds?_of_ne_nan hnan, value_clampUnit_eq_one_iff hnan]

/-- Calls are certain not to fail when the odds of it are zero. -/
theorem certain?_eq_some_false_iff :
    c.certain? = some false ↔ ∃ p, c.odds? = some p ∧ value? p = some 0 := by
  have hcertain : c.certain? = some false ↔ c.failureRate ≤ 0.0 := by
    have hpos (h : 1.0 ≤ c.failureRate) : ¬ c.failureRate ≤ 0.0 :=
      fun h0 => not_lt_of_le h0 (pos_of_one_le h)
    unfold certain?
    split_ifs with h1 h0
    · simp [hpos h1]
    · simp [h0]
    · simp [h0]
  rw [hcertain]
  by_cases hnan : c.failureRate = Float.nan
  · simp [odds?_of_nan hnan, hnan, not_nan_le]
  · simp [odds?_of_ne_nan hnan, value_clampUnit_eq_zero_iff hnan]

theorem outcome_eq_panicked_iff (payload : Datum) (fails : Bool) :
    c.outcome payload fails = .panicked ↔ c.failureRate = Float.nan := by
  rw [← odds?_eq_none_iff, outcome]
  cases c.odds? with
  | none => simp
  | some p => simp

end SimulatorConfig

/-! ### Loading -/

namespace GatewayConfig

variable {env : Environment} {fs : FileSystem} {b c : GatewayConfig}

theorem load_eq_ok (h : base env fs = .ok b) : load env fs = .ok (b.overlay env).sanitized := by
  rw [load, h]
  rfl

theorem exists_base (h : load env fs = .ok c) :
    ∃ b, base env fs = .ok b ∧ c = (b.overlay env).sanitized := by
  unfold load at h
  cases hb : base env fs with
  | error e =>
    rw [hb] at h
    cases h
  | ok b =>
    rw [hb] at h
    cases h
    exact ⟨b, rfl, rfl⟩

private theorem ne_nan_of_finiteFloat? {s : String} {x : Float} (h : finiteFloat? s = some x) :
    x ≠ Float.nan := ne_nan_of_isFinite (finiteFloat?_eq_some_iff.1 h).2

/-- Only a file can write a rate that is no number. -/
theorem base_rate_eq_nan_iff (h : base env fs = .ok b) :
    b.execution.simulator.failureRate = Float.nan ↔
      ∃ path b, env.configPath? = some path ∧ ofFile fs path = .ok b ∧
        b.execution.simulator.failureRate = Float.nan := by
  unfold base at h
  split at h
  · next hpath =>
    cases h
    simp only [hpath, reduceCtorEq, false_and, exists_false, iff_false]
    decide +kernel
  · next path hpath =>
    refine ⟨fun hb => ⟨path, b, hpath, h, hb⟩, ?_⟩
    rintro ⟨path', b', hpath', hfile, hb'⟩
    obtain rfl := Option.some.inj (hpath.symm.trans hpath')
    cases h.symm.trans hfile
    exact hb'

/-- A variable that counts gives a number. -/
theorem override_eq_nan_iff (rate : Float) :
    env.override .simFailureRate finiteFloat? rate = Float.nan ↔
      rate = Float.nan ∧ ∀ s x, env.text? Variable.simFailureRate.name = some s →
        finiteFloat? (Text.trim s) ≠ some x := by
  unfold Environment.override Environment.setting
  cases ho : (env.text? Variable.simFailureRate.name).bind fun s => finiteFloat? (Text.trim s) with
  | none =>
    refine ⟨fun hr => ⟨hr, fun s x hs hx => ?_⟩, fun hr => hr.1⟩
    rw [hs, Option.bind_some, hx] at ho
    cases ho
  | some x =>
    obtain ⟨s, hs, hx⟩ := Option.bind_eq_some_iff.1 ho
    exact ⟨fun hr => absurd hr (ne_nan_of_finiteFloat? hx), fun hr => absurd hx (hr.2 s x hs)⟩

/-- A loaded rate is a number from zero to one, which is the odds that chance settles calls by,
unless it is no number. It is none exactly when the file that was named writes none and the
environment sets no rate that counts, and exactly then simulated calls panic. -/
theorem rate_of_load (h : load env fs = .ok c) :
    let simulator := c.execution.simulator
    let rate := simulator.failureRate
    (IsProbability rate ∧ simulator.odds? = some rate ∨ rate = Float.nan) ∧
    (rate = Float.nan ↔
      (∃ path b, env.configPath? = some path ∧ ofFile fs path = .ok b ∧
        b.execution.simulator.failureRate = Float.nan) ∧
      ∀ s x, env.text? Variable.simFailureRate.name = some s →
        finiteFloat? (Text.trim s) ≠ some x) ∧
    ∀ payload fails, simulator.outcome payload fails = .panicked ↔ rate = Float.nan := by
  intro simulator rate
  obtain ⟨b, hb, rfl⟩ := exists_base h
  let overlaid := env.override .simFailureRate finiteFloat? b.execution.simulator.failureRate
  have hrate : rate = clampUnit overlaid := rfl
  refine ⟨?_, ?_, SimulatorConfig.outcome_eq_panicked_iff⟩
  · by_cases hx : overlaid = Float.nan
    · exact Or.inr (by rw [hrate, hx, clampUnit_nan])
    · have hp : IsProbability rate := isProbability_clampUnit hx
      exact Or.inl ⟨hp, SimulatorConfig.odds?_of_isProbability hp⟩
  · rw [hrate, clampUnit_eq_nan_iff, override_eq_nan_iff, base_rate_eq_nan_iff hb]

def oneVariable (name value : String) : Environment where
  bytes? n := if n = name then some value.toUTF8 else none

theorem rate_of_load_quarter :
    let env := oneVariable "TIERGATE_SIM_FAILURE_RATE" "0.25"
    let simulator := (({} : GatewayConfig).overlay env).sanitized.execution.simulator
    load env ⟨fun _ => none, []⟩ = .ok (({} : GatewayConfig).overlay env).sanitized ∧
      (IsProbability simulator.failureRate ∧ simulator.odds? = some simulator.failureRate ∨
        simulator.failureRate = Float.nan) := by
  intro env simulator
  have hpath : env.configPath? = none := by decide +kernel
  have hbase : base env ⟨fun _ => none, []⟩ = .ok {} := by rw [base, hpath]
  exact ⟨load_eq_ok hbase, (rate_of_load (load_eq_ok hbase)).1⟩

/-- A file system with the file `c` in the working directory. -/
def oneFile (content : String) : FileSystem where
  node? place := if place = ["c"] then some (.file content.toUTF8) else none

private theorem read_oneFile (content : String) :
    (oneFile content).read "c" = .ok content.toUTF8 := by
  have hnames : pathNames "c" = ["c"] := by cbv
  have hfault : pathFault? "c" = none := by decide +kernel
  have hroot : "c".startsWith "/" = false := by decide +kernel
  have hslash : "c".endsWith "/" = false := by decide +kernel
  have hplace : (oneFile content).resolve "c" = .ok (some ([], "c")) := by
    rw [FileSystem.resolve, hfault]
    simp only [hnames, FileSystem.start, hroot]
    rfl
  rw [FileSystem.read, hplace]
  simp only [hslash]
  rfl

/-- A file can write a rate that is no number, which is loaded. Every simulated call panics then. -/
theorem rate_of_load_nan :
    ∃ c, load (oneVariable "TIERGATE_CONFIG" "c")
        (oneFile "[execution.simulator]\nfailure_rate = nan\n") = .ok c ∧
      ¬ IsProbability c.execution.simulator.failureRate ∧
      ∀ payload fails, c.execution.simulator.outcome payload fails = .panicked := by
  let text := "[execution.simulator]\nfailure_rate = nan\n"
  let env := oneVariable "TIERGATE_CONFIG" "c"
  have hpath : env.configPath? = some "c" := by decide +kernel
  have htext : String.fromUTF8? text.toUTF8 = some text := by decide +kernel
  have hwritten : ((ofText? text).map fun b =>
      (b.overlay env).sanitized.execution.simulator.failureRate.isNaN) = some true := by
    decide +kernel
  obtain ⟨b, hb, hnan⟩ := Option.map_eq_some_iff.1 hwritten
  rw [Float.isNaN_eq_decide_eq_nan, decide_eq_true_iff] at hnan
  have hbase : base env (oneFile text) = .ok b := by
    rw [base, hpath]
    simp only [ofFile, read_oneFile, htext, hb]
  exact ⟨_, load_eq_ok hbase, fun hp => hp.ne_nan hnan,
    fun payload fails => (SimulatorConfig.outcome_eq_panicked_iff payload fails).2 hnan⟩

end GatewayConfig

end TieredAdmission

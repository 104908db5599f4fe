import TieredAdmission.Simulation.Options
import TieredAdmission.Proofs.Config.Rate
import TieredAdmission.Proofs.Decimal.Spelling

/-!
# What the options of the simulation may be

The grammar of the arguments: items one after another, each of them one word or two. Every list of
arguments is spelled by items up to its end or up to a place where no item can be read; there is a
message for every such place. Reading goes through the items of a list one by one, so it succeeds
exactly on the lists that are spelled to their end, and otherwise reports the first such place,
whatever comes after it.
-/

namespace TieredAdmission

open Double Decimal

inductive OptionItem where
  | json
  | requests (count : Nat)
  | failureRate (rate : Float)

namespace OptionItem

def count? : OptionItem → Option Nat
  | requests n => some n
  | _ => none

def rate? : OptionItem → Option Float
  | failureRate rate => some rate
  | _ => none

def isJson : OptionItem → Bool
  | json => true
  | _ => false

/-- The words of an item. The word after an option with a value is its value, whatever it looks
like. -/
inductive Spelled : List String → OptionItem → Prop where
  | json : Spelled ["--json"] json
  | requests {flag value : String} {n : Nat} (named : flag = "--requests" ∨ flag = "-n")
      (count : SpellsCount Word.limit64 value.toList n) : Spelled [flag, value] (requests n)
  | failureRate {value : String} {rate : Float} (literal : SpellsLiteral value.toList rate)
      (within : IsProbability rate) : Spelled ["--failure-rate", value] (failureRate rate)

/-- The words of a list of items. -/
inductive Spells : List String → List OptionItem → Prop where
  | nil : Spells [] []
  | cons {words rest : List String} {item : OptionItem} {items : List OptionItem}
      (first : Spelled words item) (others : Spells rest items) :
      Spells (words ++ rest) (item :: items)

/-- No item can be read where these words begin, and the message says why. -/
inductive Offends : List String → String → Prop where
  | missingCount {flag : String} (named : flag = "--requests" ∨ flag = "-n") :
      Offends [flag] "--requests requires a value"
  | invalidCount {flag value : String} {rest : List String}
      (named : flag = "--requests" ∨ flag = "-n")
      (unread : ∀ n, ¬ SpellsCount Word.limit64 value.toList n) :
      Offends (flag :: value :: rest) ("invalid request count: " ++ value)
  | missingRate : Offends ["--failure-rate"] "--failure-rate requires a value"
  | invalidRate {value : String} {rest : List String}
      (unread : ∀ rate, ¬ SpellsLiteral value.toList rate) :
      Offends ("--failure-rate" :: value :: rest) ("invalid failure rate: " ++ value)
  | rateOutOfRange {value : String} {rest : List String} {rate : Float}
      (literal : SpellsLiteral value.toList rate) (outside : ¬ IsProbability rate) :
      Offends ("--failure-rate" :: value :: rest)
        ("failure rate must be within 0..=1: " ++ value)
  | unknown {word : String} {rest : List String}
      (other : word ∉ ["--json", "--requests", "-n", "--failure-rate"]) :
      Offends (word :: rest) ("unknown simulate option: " ++ word)

/-- The defaults with the last item of each kind in their place. -/
def overriding (items : List OptionItem) : SimulateOptions where
  requests := (items.filterMap count?).getLast?.getD 100
  json := items.any isJson
  failureRate := (items.filterMap rate?).getLast?

/-- The options with an item in place of what they had. -/
def override (o : SimulateOptions) : OptionItem → SimulateOptions
  | json => { o with json := true }
  | requests n => { o with requests := n }
  | failureRate rate => { o with failureRate := some rate }

end OptionItem

open OptionItem

variable {o : SimulateOptions} {flag value word m : String} {args words rest good bad : List String}
  {item : OptionItem} {items : List OptionItem} {n : Nat} {rate : Float}

/-! ### Values -/

private theorem readCount_eq_ok (h : SpellsCount Word.limit64 value.toList n) :
    readCount value = .ok n := by
  rw [readCount, word64?_eq_some_iff.2 h]

private theorem readCount_eq_error (h : ∀ n, ¬ SpellsCount Word.limit64 value.toList n) :
    readCount value = .error (.invalidCount value) := by
  have hnone : word64? value = none :=
    Option.eq_none_iff_forall_ne_some.2 fun n hn => h n (word64?_eq_some_iff.1 hn)
  rw [readCount, hnone]

private theorem readRate_eq_ok (h : SpellsLiteral value.toList rate) (hp : IsProbability rate) :
    readRate value = .ok rate := by
  rw [readRate, float?_eq_some_iff.2 h]
  exact if_pos (isProbability_iff.1 hp)

private theorem readRate_out_of_range (h : SpellsLiteral value.toList rate)
    (hp : ¬ IsProbability rate) : readRate value = .error (.rateOutOfRange value) := by
  rw [readRate, float?_eq_some_iff.2 h]
  exact if_neg (mt isProbability_iff.2 hp)

private theorem readRate_eq_error (h : ∀ rate, ¬ SpellsLiteral value.toList rate) :
    readRate value = .error (.invalidRate value) := by
  have hnone : float? value = none :=
    Option.eq_none_iff_forall_ne_some.2 fun x hx => h x (float?_eq_some_iff.1 hx)
  rw [readRate, hnone]

/-! ### Reading goes item by item -/

namespace SimulateOptions

private theorem parseFrom_json (o : SimulateOptions) (rest : List String) :
    o.parseFrom ("--json" :: rest) = { o with json := true }.parseFrom rest := by
  cases rest with
  | nil => rfl
  | cons word rest => rw [parseFrom, if_pos rfl]

theorem parseFrom_requests (o : SimulateOptions) (named : flag = "--requests" ∨ flag = "-n") :
    o.parseFrom [flag] = .error .missingCount ∧ ∀ value rest, o.parseFrom (flag :: value :: rest) =
      (readCount value).bind fun n => { o with requests := n }.parseFrom rest := by
  have hjson : flag ≠ "--json" := by
    rcases named with rfl | rfl <;> decide
  refine ⟨by rw [parseFrom, if_neg hjson, if_pos named], fun value rest => ?_⟩
  rw [parseFrom, if_neg hjson, if_pos named]
  cases readCount value <;> rfl

theorem parseFrom_failureRate (o : SimulateOptions) :
    o.parseFrom ["--failure-rate"] = .error .missingRate ∧
      ∀ value rest, o.parseFrom ("--failure-rate" :: value :: rest) =
        (readRate value).bind fun rate => { o with failureRate := some rate }.parseFrom rest := by
  have hjson : "--failure-rate" ≠ "--json" := by decide
  have hcount : ¬ ("--failure-rate" = "--requests" ∨ "--failure-rate" = "-n") := by decide
  refine ⟨by rw [parseFrom, if_neg hjson, if_neg hcount, if_pos rfl], fun value rest => ?_⟩
  rw [parseFrom, if_neg hjson, if_neg hcount, if_pos rfl]
  cases readRate value <;> rfl

private theorem parseFrom_unknown (o : SimulateOptions) (rest : List String)
    (other : word ∉ ["--json", "--requests", "-n", "--failure-rate"]) :
    o.parseFrom (word :: rest) = .error (.unknown word) := by
  simp only [List.mem_cons, List.not_mem_nil, or_false, not_or] at other
  obtain ⟨hjson, hlong, hshort, hrate⟩ := other
  cases rest <;> simp [parseFrom, hjson, hlong, hshort, hrate]

private theorem parseFrom_append (h : Spelled words item) (o : SimulateOptions)
    (rest : List String) : o.parseFrom (words ++ rest) = (override o item).parseFrom rest := by
  cases h with
  | json => exact parseFrom_json o rest
  | @requests flag value n named count =>
    change o.parseFrom (flag :: value :: rest) = _
    rw [(parseFrom_requests o named).2, readCount_eq_ok count]
    rfl
  | @failureRate value rate literal within =>
    change o.parseFrom ("--failure-rate" :: value :: rest) = _
    rw [(parseFrom_failureRate o).2, readRate_eq_ok literal within]
    rfl

theorem parseFrom_spelled (h : Spells good items) (o : SimulateOptions) (rest : List String) :
    o.parseFrom (good ++ rest) = (items.foldl override o).parseFrom rest := by
  induction h generalizing o with
  | nil => rfl
  | cons first others ih => rw [List.append_assoc, parseFrom_append first, ih, List.foldl_cons]

theorem parseFrom_offends (h : Offends bad m) (o : SimulateOptions) :
    ∃ e, o.parseFrom bad = .error e ∧ e.message = m := by
  cases h with
  | missingCount named => exact ⟨.missingCount, (parseFrom_requests o named).1, rfl⟩
  | @invalidCount flag value rest named unread =>
    refine ⟨.invalidCount value, ?_, rfl⟩
    rw [(parseFrom_requests o named).2, readCount_eq_error unread]
    rfl
  | missingRate => exact ⟨.missingRate, (parseFrom_failureRate o).1, rfl⟩
  | @invalidRate value rest unread =>
    refine ⟨.invalidRate value, ?_, rfl⟩
    rw [(parseFrom_failureRate o).2, readRate_eq_error unread]
    rfl
  | @rateOutOfRange value rest rate literal outside =>
    refine ⟨.rateOutOfRange value, ?_, rfl⟩
    rw [(parseFrom_failureRate o).2, readRate_out_of_range literal outside]
    rfl
  | unknown other => exact ⟨_, parseFrom_unknown o _ other, rfl⟩

end SimulateOptions

/-! ### Every list is spelled up to its end or its first fault -/

namespace OptionItem

/-- Words that are left begin with an item or offend. -/
theorem spelled_or_offends (word : String) (rest : List String) :
    (∃ words item tail, Spelled words item ∧ word :: rest = words ++ tail ∧ words ≠ []) ∨
      ∃ m, Offends (word :: rest) m := by
  by_cases hknown : word ∈ ["--json", "--requests", "-n", "--failure-rate"]
  swap
  · exact .inr ⟨_, .unknown hknown⟩
  by_cases hjson : word = "--json"
  · exact .inl ⟨["--json"], json, rest, .json, by rw [hjson]; rfl, by simp⟩
  by_cases named : word = "--requests" ∨ word = "-n"
  · cases rest with
    | nil => exact .inr ⟨_, .missingCount named⟩
    | cons value rest =>
      by_cases hcount : ∃ n, SpellsCount Word.limit64 value.toList n
      · obtain ⟨n, count⟩ := hcount
        exact .inl ⟨[word, value], requests n, rest, .requests named count, rfl, by simp⟩
      · exact .inr ⟨_, .invalidCount named (not_exists.1 hcount)⟩
  · obtain rfl : word = "--failure-rate" := by
      simp only [List.mem_cons, List.not_mem_nil, or_false] at hknown
      tauto
    cases rest with
    | nil => exact .inr ⟨_, .missingRate⟩
    | cons value rest =>
      by_cases hrate : ∃ rate, SpellsLiteral value.toList rate
      · obtain ⟨rate, literal⟩ := hrate
        by_cases within : IsProbability rate
        · exact .inl ⟨["--failure-rate", value], failureRate rate, rest,
            .failureRate literal within, rfl, by simp⟩
        · exact .inr ⟨_, .rateOutOfRange literal within⟩
      · exact .inr ⟨_, .invalidRate (not_exists.1 hrate)⟩

theorem exists_spells (args : List String) :
    ∃ good items bad, args = good ++ bad ∧ Spells good items ∧ (bad = [] ∨ ∃ m, Offends bad m) := by
  induction hlength : args.length using Nat.strong_induction_on generalizing args with
  | _ length ih =>
    cases args with
    | nil => exact ⟨[], [], [], rfl, .nil, .inl rfl⟩
    | cons word rest =>
      rcases spelled_or_offends word rest with ⟨words, item, tail, first, heq, hne⟩ | hbad
      · -- The words after an item are fewer.
        have hshorter : tail.length < length := by
          have := List.length_pos_iff.2 hne
          rw [← hlength, heq, List.length_append]
          omega
        obtain ⟨good, items, bad, rfl, others, hend⟩ := ih _ hshorter tail rfl
        exact ⟨words ++ good, item :: items, bad, by rw [heq, List.append_assoc],
          .cons first others, hend⟩
      · exact ⟨[], [], word :: rest, rfl, .nil, .inr hbad⟩

private theorem foldl_override (items : List OptionItem) (o : SimulateOptions) :
    items.foldl override o =
      { requests := (items.filterMap count?).getLast?.getD o.requests
        json := o.json || items.any isJson
        failureRate := (items.filterMap rate?).getLast?.or o.failureRate } := by
  induction items generalizing o with
  | nil => simp
  | cons item items ih =>
    rw [List.foldl_cons, ih]
    cases item <;> simp [override, count?, rate?, isJson, List.getLast?_cons]

private theorem foldl_override_default (items : List OptionItem) :
    items.foldl override {} = overriding items := by
  rw [foldl_override]
  simp [overriding]

end OptionItem

/-! ### What is accepted -/

namespace SimulateOptions

theorem parse_spelled (h : Spells args items) : parse args = .ok (overriding items) := by
  have hread := parseFrom_spelled h {} []
  rwa [List.append_nil, foldl_override_default] at hread

theorem parse_offending (h : Spells good items) (hbad : Offends bad m) :
    ∃ e, parse (good ++ bad) = .error e ∧ e.message = m := by
  obtain ⟨e, he, hm⟩ := parseFrom_offends hbad (items.foldl override {})
  exact ⟨e, (parseFrom_spelled h {} bad).trans he, hm⟩

/-- Arguments are accepted exactly when items spell them to their end, and then the last item of
each kind counts. They are rejected with a message exactly when items spell them up to a place that
offends with this message, whatever comes after it. -/
theorem parse_follows_grammar (args : List String) :
    (∀ o, parse args = .ok o ↔ ∃ items, Spells args items ∧ o = overriding items) ∧
    ∀ m, (∃ e, parse args = .error e ∧ e.message = m) ↔
      ∃ good items bad, args = good ++ bad ∧ Spells good items ∧ Offends bad m := by
  obtain ⟨good, items, bad, rfl, hgood, hend⟩ := exists_spells args
  refine ⟨fun o => ⟨fun ho => ?_, ?_⟩, fun m => ⟨?_, ?_⟩⟩
  · rcases hend with rfl | ⟨m, hbad⟩
    · rw [List.append_nil] at ho ⊢
      exact ⟨items, hgood, Except.ok.inj (ho.symm.trans (parse_spelled hgood))⟩
    · obtain ⟨e, he, -⟩ := parse_offending hgood hbad
      cases ho.symm.trans he
  · rintro ⟨others, hothers, rfl⟩
    exact parse_spelled hothers
  · rintro ⟨e, he, rfl⟩
    rcases hend with rfl | ⟨m, hbad⟩
    · rw [List.append_nil] at he
      cases he.symm.trans (parse_spelled hgood)
    · obtain ⟨e', he', rfl⟩ := parse_offending hgood hbad
      obtain rfl := Except.error.inj (he.symm.trans he')
      exact ⟨good, items, bad, rfl, hgood, hbad⟩
  · rintro ⟨others, items', bad', heq, hothers, hbad⟩
    rw [heq]
    exact parse_offending hothers hbad

/-- The last count is taken, and a count that looks like an option is reported as a count. -/
example :
    (parse ["-n", "7", "--json", "--requests", "+25"]).toOption.map (·.requests) = some 25 ∧
      (parse ["--json", "-n", "--json", "--bogus"]).map (fun _ => ()) =
        .error (.invalidCount "--json") := by
  constructor <;> cbv

end SimulateOptions

end TieredAdmission

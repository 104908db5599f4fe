import TieredAdmission.Decimal.Literal

/-!
# Spellings of counts and literals

The grammars of counts and of decimal literals, each spelling with its value. A reader gives a value
exactly when the grammar does. Digits come before what is no digit, so the reader that takes as many
of them as there are splits a literal as the grammar does; and neither a numeral nor a word begins
with a sign, so there is one way to take the sign off.
-/

namespace TieredAdmission.Decimal

variable {cs ds rest : List Char} {limit n : Nat} {e : Int} {x : Float} {s : String} {c : Char}

/-! ### Numerals -/

structure IsNumeral (ds : List Char) : Prop where
  ne_nil : ds ≠ []
  digits : ∀ c ∈ ds, isDigit c = true

theorem isNumeral_iff : IsNumeral ds ↔ ¬ (ds.isEmpty || !ds.all isDigit) = true := by
  rw [Bool.or_eq_true, not_or, List.isEmpty_iff, Bool.not_eq_true', Bool.not_eq_false,
    List.all_eq_true]
  exact ⟨fun h => ⟨h.ne_nil, h.digits⟩, fun h => ⟨h.1, h.2⟩⟩

private theorem not_isDigit_plus : ¬ isDigit '+' = true := by decide

private theorem not_isDigit_minus : ¬ isDigit '-' = true := by decide

/-! ### Counts -/

/-- A count below a limit: a numeral, which a plus sign may precede. -/
inductive SpellsCount (limit : Nat) : List Char → Nat → Prop where
  | plain {ds : List Char} (numeral : IsNumeral ds) (below : value ds < limit) :
      SpellsCount limit ds (value ds)
  | plus {ds : List Char} (numeral : IsNumeral ds) (below : value ds < limit) :
      SpellsCount limit ('+' :: ds) (value ds)

private theorem count?_plus (limit : Nat) (ds : List Char) :
    count? limit ('+' :: ds) = if ds.isEmpty || !ds.all isDigit then none
      else if value ds < limit then some (value ds) else none := rfl

private theorem count?_of_ne_plus (limit : Nat) (h : ∀ ds, cs ≠ '+' :: ds) :
    count? limit cs = if cs.isEmpty || !cs.all isDigit then none
      else if value cs < limit then some (value cs) else none := by
  unfold count?
  split
  · next ds => exact absurd rfl (h ds)
  · rfl

/-- The reader of counts accepts their grammar. -/
theorem count?_eq_some_iff : count? limit cs = some n ↔ SpellsCount limit cs n := by
  constructor
  · intro h
    by_cases hplus : ∃ ds, cs = '+' :: ds
    · obtain ⟨ds, rfl⟩ := hplus
      rw [count?_plus, Option.ite_none_left_eq_some, Option.ite_none_right_eq_some] at h
      obtain ⟨hnumeral, hbelow, hvalue⟩ := h
      obtain rfl := Option.some.inj hvalue
      exact .plus (isNumeral_iff.2 hnumeral) hbelow
    · rw [count?_of_ne_plus limit (not_exists.1 hplus), Option.ite_none_left_eq_some,
        Option.ite_none_right_eq_some] at h
      obtain ⟨hnumeral, hbelow, hvalue⟩ := h
      obtain rfl := Option.some.inj hvalue
      exact .plain (isNumeral_iff.2 hnumeral) hbelow
  · rintro (⟨numeral, below⟩ | ⟨numeral, below⟩)
    · have hne : ∀ ds, cs ≠ '+' :: ds := by
        rintro ds rfl
        exact not_isDigit_plus (numeral.digits _ List.mem_cons_self)
      rw [count?_of_ne_plus limit hne, if_neg (isNumeral_iff.1 numeral), if_pos below]
    · rw [count?_plus, if_neg (isNumeral_iff.1 numeral), if_pos below]

theorem word64?_eq_some_iff : word64? s = some n ↔ SpellsCount Word.limit64 s.toList n :=
  count?_eq_some_iff

/-! ### Signs -/

/-- An optional sign, and whether it is a minus sign. -/
inductive SpellsSign : List Char → Bool → Prop where
  | absent : SpellsSign [] false
  | plus : SpellsSign ['+'] false
  | minus : SpellsSign ['-'] true

def Unsigned (cs : List Char) : Prop := ∀ c ∈ cs.head?, c ≠ '+' ∧ c ≠ '-'

theorem IsNumeral.unsigned (h : IsNumeral ds) : Unsigned ds := by
  intro c hc
  have hdigit := h.digits c (List.mem_of_mem_head? hc)
  exact ⟨fun heq => not_isDigit_plus (heq ▸ hdigit), fun heq => not_isDigit_minus (heq ▸ hdigit)⟩

private theorem splitSign_append {sign : List Char} {negative : Bool} (h : SpellsSign sign negative)
    (hcs : Unsigned cs) : splitSign (sign ++ cs) = (negative, cs) := by
  cases h with
  | plus | minus => rfl
  | absent =>
    rw [List.nil_append]
    unfold splitSign
    split
    · exact absurd rfl (hcs '-' rfl).2
    · exact absurd rfl (hcs '+' rfl).1
    · rfl

private theorem exists_splitSign (cs : List Char) :
    ∃ sign, cs = sign ++ (splitSign cs).2 ∧ SpellsSign sign (splitSign cs).1 := by
  unfold splitSign
  split
  · exact ⟨['-'], rfl, .minus⟩
  · exact ⟨['+'], rfl, .plus⟩
  · exact ⟨[], rfl, .absent⟩

/-! ### Exponents -/

/-- An optional exponent part with its value. -/
inductive SpellsExponent : List Char → Int → Prop where
  | absent : SpellsExponent [] 0
  | written {letter : Char} {sign ds : List Char} {negative : Bool}
      (named : letter = 'e' ∨ letter = 'E') (signed : SpellsSign sign negative)
      (numeral : IsNumeral ds) :
      SpellsExponent (letter :: (sign ++ ds)) (if negative then -(value ds : Int) else value ds)

private theorem exponent?_cons (c : Char) (rest : List Char) :
    exponent? (c :: rest) =
      if c == 'e' || c == 'E' then
        if (splitSign rest).2.isEmpty || !(splitSign rest).2.all isDigit then none
        else some (if (splitSign rest).1 then -(value (splitSign rest).2 : Int)
          else value (splitSign rest).2)
      else none := rfl

theorem exponent?_eq_some_iff : exponent? cs = some e ↔ SpellsExponent cs e := by
  constructor
  · intro h
    cases cs with
    | nil =>
      obtain rfl := Option.some.inj h
      exact .absent
    | cons c rest =>
      rw [exponent?_cons, Option.ite_none_right_eq_some, Option.ite_none_left_eq_some] at h
      obtain ⟨hletter, hnumeral, hvalue⟩ := h
      obtain rfl := Option.some.inj hvalue
      obtain ⟨sign, hrest, hsign⟩ := exists_splitSign rest
      have named : c = 'e' ∨ c = 'E' := by simpa using hletter
      have hspelled := SpellsExponent.written named hsign (isNumeral_iff.2 hnumeral)
      rwa [← hrest] at hspelled
  · intro h
    cases h with
    | absent => rfl
    | written named signed numeral =>
      rw [exponent?_cons, splitSign_append signed numeral.unsigned, if_pos (by simpa using named),
        if_neg (isNumeral_iff.1 numeral)]

/-! ### Numbers -/

/-- A number without a sign: digits with an optional point among or around them, and an optional
exponent part. Its value is the nearest double. -/
inductive SpellsNumber : List Char → Float → Prop where
  | whole {ds es : List Char} {e : Int} (numeral : IsNumeral ds) (exponent : SpellsExponent es e) :
      SpellsNumber (ds ++ es) (nearest (value ds) e)
  | point {ds fs es : List Char} {e : Int} (numeral : IsNumeral (ds ++ fs))
      (exponent : SpellsExponent es e) :
      SpellsNumber (ds ++ '.' :: (fs ++ es)) (nearest (value (ds ++ fs)) (e - fs.length))

/-- What is left once the digits are taken. -/
theorem span_isDigit_append (hds : ∀ c ∈ ds, isDigit c = true)
    (hrest : ∀ c ∈ rest.head?, isDigit c = false) :
    (ds ++ rest).takeWhile isDigit = ds ∧ (ds ++ rest).dropWhile isDigit = rest := by
  rw [List.takeWhile_append_of_pos hds, List.dropWhile_append_of_pos hds]
  cases rest with
  | nil => simp
  | cons c rest =>
    have hc := hrest c rfl
    rw [List.takeWhile_cons_of_neg (by simp [hc]), List.dropWhile_cons_of_neg (by simp [hc])]
    simp

theorem isDigit_of_mem_takeWhile (h : c ∈ cs.takeWhile isDigit) : isDigit c = true :=
  List.all_eq_true.1 List.all_takeWhile c h

/-- An exponent part begins with neither a digit nor a point. -/
theorem SpellsExponent.head_of_mem (h : SpellsExponent cs e) (hc : c ∈ cs.head?) :
    isDigit c = false ∧ c ≠ '.' := by
  cases h with
  | absent => cases hc
  | written named =>
    obtain rfl := Option.some.inj hc
    rcases named with rfl | rfl <;> exact ⟨by decide, by decide⟩

private theorem magnitude?_whole (hrest : ∀ rest, cs.dropWhile isDigit ≠ '.' :: rest) :
    magnitude? cs = if (cs.takeWhile isDigit).isEmpty then none
      else (exponent? (cs.dropWhile isDigit)).map fun e =>
        nearest (value (cs.takeWhile isDigit)) e := by
  unfold magnitude?
  dsimp only
  split
  · next rest h => exact absurd h (hrest rest)
  · rfl

private theorem magnitude?_point (hrest : cs.dropWhile isDigit = '.' :: rest) :
    magnitude? cs =
      if (cs.takeWhile isDigit).isEmpty && (rest.takeWhile isDigit).isEmpty then none
      else (exponent? (rest.dropWhile isDigit)).map fun e =>
        nearest (value (cs.takeWhile isDigit ++ rest.takeWhile isDigit))
          (e - (rest.takeWhile isDigit).length) := by
  unfold magnitude?
  dsimp only
  rw [hrest]
  rfl

private theorem spellsNumber_of_magnitude? (h : magnitude? cs = some x) : SpellsNumber cs x := by
  have hcs : cs.takeWhile isDigit ++ cs.dropWhile isDigit = cs := List.takeWhile_append_dropWhile
  by_cases hpoint : ∃ rest, cs.dropWhile isDigit = '.' :: rest
  · obtain ⟨rest, hrest⟩ := hpoint
    rw [magnitude?_point hrest, Option.ite_none_left_eq_some, Option.map_eq_some_iff] at h
    obtain ⟨hne, e, he, rfl⟩ := h
    have numeral : IsNumeral (cs.takeWhile isDigit ++ rest.takeWhile isDigit) :=
      ⟨by simpa using hne, fun c hc =>
        (List.mem_append.1 hc).elim isDigit_of_mem_takeWhile isDigit_of_mem_takeWhile⟩
    have hspelled := SpellsNumber.point numeral (exponent?_eq_some_iff.1 he)
    rwa [List.takeWhile_append_dropWhile, ← hrest, hcs] at hspelled
  · rw [magnitude?_whole (not_exists.1 hpoint), Option.ite_none_left_eq_some,
      Option.map_eq_some_iff] at h
    obtain ⟨hne, e, he, rfl⟩ := h
    have numeral : IsNumeral (cs.takeWhile isDigit) :=
      ⟨by simpa using hne, fun c => isDigit_of_mem_takeWhile⟩
    have hspelled := SpellsNumber.whole numeral (exponent?_eq_some_iff.1 he)
    rwa [hcs] at hspelled

theorem SpellsNumber.magnitude? (h : SpellsNumber cs x) : magnitude? cs = some x := by
  cases h with
  | @whole ds es e numeral exponent =>
    obtain ⟨htake, hdrop⟩ :=
      span_isDigit_append numeral.digits fun c hc => (exponent.head_of_mem hc).1
    have hpoint : ∀ rest, (ds ++ es).dropWhile isDigit ≠ '.' :: rest := by
      rintro rest hrest
      rw [hdrop] at hrest
      exact (exponent.head_of_mem (hrest ▸ rfl)).2 rfl
    rw [magnitude?_whole hpoint, htake, hdrop, exponent?_eq_some_iff.2 exponent,
      if_neg (by simpa using numeral.ne_nil)]
    rfl
  | @point ds fs es e numeral exponent =>
    have hpoint : ∀ c ∈ ('.' :: (fs ++ es)).head?, isDigit c = false := by simp [isDigit]
    obtain ⟨htake, hdrop⟩ := span_isDigit_append
      (fun c hc => numeral.digits c (List.mem_append_left _ hc)) hpoint
    obtain ⟨htake', hdrop'⟩ := span_isDigit_append
      (fun c hc => numeral.digits c (List.mem_append_right _ hc))
      fun c hc => (exponent.head_of_mem hc).1
    rw [magnitude?_point hdrop, htake, htake', hdrop', exponent?_eq_some_iff.2 exponent,
      if_neg (by simpa using numeral.ne_nil)]
    rfl

/-! ### Literals -/

/-- The size of a literal: a number or one of the words, in any case. -/
inductive SpellsSize : List Char → Float → Prop where
  | infinity {cs : List Char}
      (word : cs.map Char.toLower = "inf".toList ∨ cs.map Char.toLower = "infinity".toList) :
      SpellsSize cs infinity
  | notANumber {cs : List Char} (word : cs.map Char.toLower = "nan".toList) :
      SpellsSize cs notANumber
  | number {cs : List Char} {x : Float} (number : SpellsNumber cs x) : SpellsSize cs x

/-- A decimal literal: an optional sign and a size. -/
inductive SpellsLiteral : List Char → Float → Prop where
  | signed {sign cs : List Char} {negative : Bool} {x : Float} (signed : SpellsSign sign negative)
      (size : SpellsSize cs x) : SpellsLiteral (sign ++ cs) (if negative then -x else x)

theorem SpellsNumber.head (h : SpellsNumber cs x) :
    ∃ c rest, cs = c :: rest ∧ (isDigit c = true ∨ c = '.') := by
  cases h with
  | @whole ds es e numeral exponent =>
    obtain ⟨c, ds, rfl⟩ := List.exists_cons_of_ne_nil numeral.ne_nil
    exact ⟨c, ds ++ es, rfl, .inl (numeral.digits c List.mem_cons_self)⟩
  | @point ds fs es e numeral exponent =>
    cases ds with
    | nil => exact ⟨'.', fs ++ es, rfl, .inr rfl⟩
    | cons c ds =>
      exact ⟨c, ds ++ '.' :: (fs ++ es), rfl, .inl (numeral.digits c List.mem_cons_self)⟩

private theorem toLower_of_isDigit (h : isDigit c = true) : c.toLower = c := by
  simp only [isDigit, Bool.and_eq_true, decide_eq_true_eq, Char.le_def] at h
  refine dif_neg fun hupper => ?_
  exact absurd (UInt32.le_trans hupper.1 h.2) (by decide)

/-- No number begins with a letter that a word begins with. -/
theorem SpellsNumber.map_toLower_ne (h : SpellsNumber cs x) {first : Char} {rest : List Char}
    (hdigit : isDigit first = false) (hpoint : first ≠ '.') :
    cs.map Char.toLower ≠ first :: rest := by
  obtain ⟨c, cs, rfl, hc⟩ := h.head
  intro hmap
  have hlower : c.toLower = first := (List.cons.inj hmap).1
  rcases hc with hc | rfl
  · rw [← hlower, toLower_of_isDigit hc, hc] at hdigit
    cases hdigit
  · exact hpoint hlower.symm

theorem SpellsSize.unsigned (h : SpellsSize cs x) : Unsigned cs := by
  -- A sign is its own lower case, and no word begins with it.
  have hword {first : Char} {rest : List Char} (hne : first ≠ '+' ∧ first ≠ '-')
      (hmap : cs.map Char.toLower = first :: rest) : Unsigned cs := by
    intro c hc
    obtain ⟨ds, rfl⟩ := List.head?_eq_some_iff.1 hc
    have hlower : c.toLower = first := (List.cons.inj hmap).1
    refine ⟨?_, ?_⟩
    · rintro rfl
      exact hne.1 hlower.symm
    · rintro rfl
      exact hne.2 hlower.symm
  cases h with
  | infinity word => rcases word with word | word <;> exact hword (by decide) word
  | notANumber word => exact hword (by decide) word
  | number number =>
    obtain ⟨c, rest, rfl, hc⟩ := number.head
    intro d hd
    obtain rfl := Option.some.inj hd
    refine ⟨?_, ?_⟩ <;> rintro rfl <;> revert hc <;> decide

def size? (cs : List Char) : Option Float :=
  if cs.map Char.toLower == "inf".toList || cs.map Char.toLower == "infinity".toList then
    some infinity
  else if cs.map Char.toLower == "nan".toList then some notANumber
  else magnitude? cs

theorem size?_eq_some_iff : size? cs = some x ↔ SpellsSize cs x := by
  constructor
  · intro h
    unfold size? at h
    split at h
    · next hword =>
      obtain rfl := Option.some.inj h
      exact .infinity (by simpa only [Bool.or_eq_true, beq_iff_eq] using hword)
    · split at h
      · next hword =>
        obtain rfl := Option.some.inj h
        exact .notANumber (beq_iff_eq.1 hword)
      · exact .number (spellsNumber_of_magnitude? h)
  · intro h
    cases h with
    | infinity word => exact if_pos (by simpa only [Bool.or_eq_true, beq_iff_eq] using word)
    | notANumber word =>
      rw [size?, word, if_neg (by decide), if_pos (by decide)]
    | number number =>
      have hinf : cs.map Char.toLower ≠ "inf".toList :=
        number.map_toLower_ne (by decide) (by decide)
      have hinfinity : cs.map Char.toLower ≠ "infinity".toList :=
        number.map_toLower_ne (by decide) (by decide)
      have hnan : cs.map Char.toLower ≠ "nan".toList :=
        number.map_toLower_ne (by decide) (by decide)
      rw [size?, beq_eq_false_iff_ne.2 hinf, beq_eq_false_iff_ne.2 hinfinity,
        beq_eq_false_iff_ne.2 hnan]
      exact number.magnitude?

private theorem float?_eq (s : String) :
    float? s = (size? (splitSign s.toList).2).map fun x =>
      if (splitSign s.toList).1 then -x else x := rfl

/-- The reader of decimal literals accepts their grammar. -/
theorem float?_eq_some_iff : float? s = some x ↔ SpellsLiteral s.toList x := by
  rw [float?_eq, Option.map_eq_some_iff]
  constructor
  · rintro ⟨y, hy, rfl⟩
    obtain ⟨sign, hs, hsign⟩ := exists_splitSign s.toList
    have hspelled := SpellsLiteral.signed hsign (size?_eq_some_iff.1 hy)
    rwa [← hs] at hspelled
  · intro h
    generalize s.toList = cs at h
    cases h with
    | signed signed size =>
      rw [splitSign_append signed size.unsigned]
      exact ⟨_, size?_eq_some_iff.2 size, rfl⟩

end TieredAdmission.Decimal

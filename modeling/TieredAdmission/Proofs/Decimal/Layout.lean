import TieredAdmission.Decimal.Shortest
import TieredAdmission.Proofs.Decimal.Digits
import TieredAdmission.Proofs.Double.Value

/-!
# Texts of doubles

The plain text of a finite double consists of digits, at most one point and a minus sign in front.
-/

namespace TieredAdmission.Decimal

open Float.Model Float.Model.UnpackedFloat Double

variable {x : Float} {c : Char} {n : Nat} {k : Int}

/-! ### The parts of a double -/

private theorem toNat_unpackExponent (b : BitVec 64) :
    (@unpackExponent Format.binary64 b).toNat = b.toNat / twoTo 52 % 2048 := by
  rw [unpackExponent_def, BitVec.extractLsb'_toNat, Nat.shiftRight_eq_div_pow]
  rfl

private theorem toNat_unpackMantissa (b : BitVec 64) :
    (@unpackMantissa Format.binary64 b).toNat = b.toNat % twoTo 52 := by
  rw [unpackMantissa_def, BitVec.extractLsb'_toNat, Nat.shiftRight_zero]
  rfl

private theorem toNat_unpackSign (b : BitVec 64) :
    (@unpackSign Format.binary64 b).toNat = b.toNat / twoTo 63 := by
  rw [unpackSign_def, BitVec.extractLsb'_toNat, Nat.shiftRight_eq_div_pow]
  have hlt : b.toNat < 2 ^ 64 := b.isLt
  change b.toNat / 2 ^ 63 % 2 = b.toNat / 2 ^ 63
  omega

def isNegative : Sign → Bool
  | .positive => false
  | .negative => true

/-- What the bits of a double stand for is what the double is unpacked to. -/
def binaryOf : UnpackedFloat → Binary
  | .notANumber => .notANumber
  | .infinity s => .infinite (isNegative s)
  | .zero s => .finite (isNegative s) 0 (-1074)
  | .finite s m e _ => .finite (isNegative s) m e

private theorem isNegative_ofBitVec (b : BitVec 1) :
    isNegative (Sign.ofBitVec b) = (b.toNat == 1) := by
  revert b
  decide

theorem binary_ofFloat (x : Float) : Binary.ofFloat x = binaryOf x.toModel.unpack := by
  let b : BitVec 64 := x.toModel.toBits.toBitVec
  have hexponent : (@unpackExponent Format.binary64 b).toNat = b.toNat / twoTo 52 % 2048 :=
    toNat_unpackExponent b
  have hmantissa : (@unpackMantissa Format.binary64 b).toNat = b.toNat % twoTo 52 :=
    toNat_unpackMantissa b
  have hsign : isNegative (Sign.ofBitVec (@unpackSign Format.binary64 b)) =
      (b.toNat / twoTo 63 == 1) := by
    rw [isNegative_ofBitVec, toNat_unpackSign]
  have hparts : packComponents Format.binary64 (Sign.ofBitVec (@unpackSign Format.binary64 b))
      (@unpackExponent Format.binary64 b) (@unpackMantissa Format.binary64 b) = b :=
    @packComponents_unpackSign_unpackExponent_unpackMantissa Format.binary64 b
  have hunpack := unpack_packComponents (Sign.ofBitVec (@unpackSign Format.binary64 b))
    (@unpackExponent Format.binary64 b) (@unpackMantissa Format.binary64 b)
  rw [hparts] at hunpack
  change x.toModel.unpack = _ at hunpack
  change (if b.toNat / twoTo 52 % 2048 = 2047 then
      if b.toNat % twoTo 52 = 0 then Binary.infinite (b.toNat / twoTo 63 == 1)
      else Binary.notANumber
    else if b.toNat / twoTo 52 % 2048 = 0 then
      Binary.finite (b.toNat / twoTo 63 == 1) (b.toNat % twoTo 52) (-1074)
    else Binary.finite (b.toNat / twoTo 63 == 1) (twoTo 52 + b.toNat % twoTo 52)
      ((b.toNat / twoTo 52 % 2048 : Nat) - 1075 : Int)) = _
  rw [← hexponent, ← hmantissa, ← hsign, hunpack]
  clear hexponent hmantissa hsign hunpack
  generalize @unpackExponent Format.binary64 b = e
  generalize @unpackMantissa Format.binary64 b = m
  generalize Sign.ofBitVec (@unpackSign Format.binary64 b) = s
  have hall : e.toNat = 2047 ↔ e = -1#11 := BitVec.toNat_inj (y := -1#11)
  have hnone : e.toNat = 0 ↔ e = 0#11 := BitVec.toNat_inj (y := 0#11)
  have hzero : m.toNat = 0 ↔ m = 0#52 := BitVec.toNat_inj (y := 0#52)
  simp only [hall, hnone, hzero]
  split
  · split <;> rfl
  · split
    · split
      · next hm => rw [hzero.2 hm]; rfl
      · rfl
    · rfl

theorem isFinite_iff : isFinite x = true ↔ ∃ s m e, Binary.ofFloat x = .finite s m e := by
  unfold isFinite Binary.ofFloat
  dsimp only
  rw [bne_iff_ne]
  split
  · next h =>
    refine ⟨fun hne => absurd h hne, ?_⟩
    rintro ⟨s, m, e, h⟩
    split at h <;> cases h
  · next h =>
    refine ⟨fun _ => ?_, fun _ => h⟩
    split
    · exact ⟨_, _, _, rfl⟩
    · exact ⟨_, _, _, rfl⟩

theorem isFinite_of_value {a : ℚ} (h : value? x = some a) : isFinite x = true := by
  rw [isFinite_iff, binary_ofFloat]
  obtain ⟨s, hs⟩ | ⟨s, m, e, hm, hs⟩ := zero_or_finite h
  · exact ⟨_, _, _, by rw [hs]; rfl⟩
  · exact ⟨_, _, _, by rw [hs]; rfl⟩

/-! ### Plain characters -/

def isPlain (c : Char) : Bool := isDigit c || c == '.' || c == '-'

theorem isPlain_of_isDigit (h : isDigit c = true) : isPlain c = true := by
  rw [isPlain, h, Bool.true_or, Bool.true_or]

private theorem isBlank_of_isPlain (h : isPlain c = true) : Text.isBlank c = false := by
  rw [isPlain, Bool.or_eq_true, Bool.or_eq_true, beq_iff_eq, beq_iff_eq] at h
  obtain (h | rfl) | rfl := h
  · exact isBlank_of_isDigit h
  · rfl
  · rfl

/-- Plain decimals have no exponent. -/
theorem layOut_plainDecimal (n : Nat) (k : Int) :
    FloatStyle.plainDecimal.layOut n k =
      let point : Int := (digits n).length + k
      if 0 ≤ k then String.ofList (digits n ++ List.replicate k.toNat '0')
      else if 0 < point then
        String.ofList ((digits n).take point.toNat ++ '.' :: (digits n).drop point.toNat)
      else String.ofList ("0.".toList ++ List.replicate (-point).toNat '0' ++ digits n) := by
  rw [FloatStyle.layOut, if_pos (by rfl)]
  exact if_congr Iff.rfl String.append_empty rfl

private theorem isPlain_of_mem_layOut (h : c ∈ (FloatStyle.plainDecimal.layOut n k).toList) :
    isPlain c = true := by
  have hdigit (hc : c ∈ digits n) : isPlain c = true :=
    isPlain_of_isDigit (isDigit_of_mem_digits hc)
  have hzero {j : Nat} (hc : c ∈ List.replicate j '0') : isPlain c = true := by
    rw [List.eq_of_mem_replicate hc]
    rfl
  rw [layOut_plainDecimal] at h
  dsimp only at h
  split at h
  · simp only [String.toList_ofList, List.mem_append] at h
    exact h.elim hdigit hzero
  · split at h
    · simp only [String.toList_ofList, List.mem_append, List.mem_cons] at h
      obtain h | rfl | h := h
      · exact hdigit (List.mem_of_mem_take h)
      · rfl
      · exact hdigit (List.mem_of_mem_drop h)
    · simp only [String.toList_ofList, List.mem_append] at h
      obtain (h | h) | h := h
      · obtain rfl | h := List.mem_cons.1 h
        · rfl
        · obtain rfl := List.mem_singleton.1 h
          rfl
      · exact hzero h
      · exact hdigit h

theorem isPlain_of_mem_text (hx : isFinite x = true)
    (h : c ∈ (FloatStyle.plainDecimal.text x).toList) : isPlain c = true := by
  obtain ⟨s, m, e, hs⟩ := isFinite_iff.1 hx
  rw [FloatStyle.text, hs] at h
  simp only [String.toList_append, List.mem_append] at h
  obtain h | h := h
  · cases s with
    | false => simp at h
    | true =>
      obtain rfl := List.mem_singleton.1 h
      rfl
  · exact isPlain_of_mem_layOut h

theorem trim_text_of_isFinite (hx : isFinite x = true) :
    Text.trim (FloatStyle.plainDecimal.text x) = FloatStyle.plainDecimal.text x :=
  Text.trim_of_forall fun _ hc => isBlank_of_isPlain (isPlain_of_mem_text hx hc)

end TieredAdmission.Decimal

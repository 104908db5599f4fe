import Mathlib
import TieredAdmission.Decimal.Digits
import TieredAdmission.Text.Blank

/-!
# Texts of whole numbers

The digits of a number write that number again, and none of them is a blank, so the text of a number
that fits into a word is read back whether blanks around it are dropped or not.
-/

namespace TieredAdmission

/-! ### Texts without blanks -/

namespace Text

variable {s : String} {cs : List Char}

private theorem trimList_of_forall (h : ∀ c ∈ cs, isBlank c = false) : trimList cs = cs := by
  have hdrop {cs : List Char} (h : ∀ c ∈ cs, isBlank c = false) : cs.dropWhile isBlank = cs := by
    cases cs with
    | nil => rfl
    | cons c cs => rw [List.dropWhile_cons_of_neg (by simp [h c List.mem_cons_self])]
  rw [trimList, hdrop h, hdrop fun c hc => h c (List.mem_reverse.1 hc), List.reverse_reverse]

theorem trim_of_forall (h : ∀ c ∈ s.toList, isBlank c = false) : trim s = s := by
  rw [trim, trimList_of_forall h, String.ofList_toList]

theorem trimList_eq (cs : List Char) :
    trimList cs = (cs.dropWhile isBlank).rdropWhile isBlank := rfl

/-- What is left begins as it did after the blanks in front were dropped. -/
theorem trimList_trimList (cs : List Char) : trimList (trimList cs) = trimList cs := by
  have hfirst : trimList cs <+: cs.dropWhile isBlank := List.rdropWhile_prefix isBlank _
  have hfront : (trimList cs).dropWhile isBlank = trimList cs := by
    refine List.dropWhile_eq_self_iff.2 fun hl => ?_
    rw [hfirst.getElem hl]
    exact List.dropWhile_get_zero_not isBlank cs _
  rw [trimList_eq (trimList cs), hfront, trimList_eq, List.rdropWhile_idempotent]

@[simp] theorem trim_trim (s : String) : trim (trim s) = trim s := by
  rw [trim, trim, String.toList_ofList, trimList_trimList]

theorem mem_of_mem_trim {c : Char} (h : c ∈ (trim s).toList) : c ∈ s.toList := by
  rw [trim, String.toList_ofList, trimList_eq] at h
  exact (List.dropWhile_suffix isBlank).subset ((List.rdropWhile_prefix isBlank _).subset h)

end Text

/-! ### Digits -/

namespace Decimal

variable {n limit : Nat} {cs : List Char} {c : Char}

theorem isDigit_of_mem_digits (h : c ∈ digits n) : isDigit c = true := by
  have hdigit := Nat.isDigit_of_mem_toDigits (by decide) (by decide) h
  simpa [isDigit, Char.isDigit, Char.le_def] using hdigit

private theorem all_isDigit_digits (n : Nat) : (digits n).all isDigit = true :=
  List.all_eq_true.2 fun _ => isDigit_of_mem_digits

private theorem digits_ne_nil (n : Nat) : digits n ≠ [] := Nat.toDigits_ne_nil

@[simp] theorem value_digits (n : Nat) : value (digits n) = n := Nat.ofDigitChars_ten_toDigits

theorem isBlank_of_isDigit (h : isDigit c = true) : Text.isBlank c = false := by
  simp only [isDigit, Bool.and_eq_true, decide_eq_true_eq, Char.le_def, UInt32.le_iff_toNat_le] at h
  have hnat : c.val.toNat = c.toNat := rfl
  unfold Text.isBlank
  simp at h ⊢
  omega

@[simp] theorem trim_text (n : Nat) : Text.trim (text n) = text n := by
  refine Text.trim_of_forall fun c hc => isBlank_of_isDigit (isDigit_of_mem_digits (n := n) ?_)
  rwa [text, String.toList_ofList] at hc

/-! ### Counts -/

theorem count?_digits (h : n < limit) : count? limit (digits n) = some n := by
  have hempty : (digits n).isEmpty = false := List.isEmpty_eq_false_iff.2 (digits_ne_nil n)
  unfold count?
  split
  · next rest hcons =>
    have hplus : isDigit '+' = true := isDigit_of_mem_digits (hcons ▸ List.mem_cons_self)
    exact absurd hplus (by decide)
  · dsimp only
    rw [hempty, all_isDigit_digits, value_digits, if_neg (by decide), if_pos h]

theorem lt_of_count? (h : count? limit cs = some n) : n < limit := by
  simp only [count?, Option.ite_none_left_eq_some, Option.ite_none_right_eq_some,
    Option.some.injEq] at h
  obtain ⟨-, hlt, rfl⟩ := h
  exact hlt

theorem word64?_text (h : n < Word.limit64) : word64? (text n) = some n := by
  rw [word64?, text, String.toList_ofList, count?_digits h]

theorem word32?_text (h : n < Word.limit32) : word32? (text n) = some n := by
  rw [word32?, text, String.toList_ofList, count?_digits h]

end Decimal

end TieredAdmission

import Mathlib.Data.Nat.Digits.Defs
import RiscvDialect.Numeral

/-!
# What digits write

The readers of numerals go through the digits from the left and multiply what they have by the base
at each step. The number is the sum of the values of the digits, each weighted with the power of the
base that belongs to its place, counted from the right.

## Main definitions

* `digitValue`: the value of a digit
* `valueOf`: the number that digits write in a base

## Main statements

* `ofDecimalDigits_eq_valueOf`, `ofHexDigits_eq_valueOf`: the numbers that the readers make
-/

namespace RiscvDialect.Numeral

/-- The digits, by their values. -/
def digitChars : List Char := "0123456789abcdef".toList

/-- The value of a digit. Letters may be of either case. -/
def digitValue (c : Char) : Nat :=
  digitChars.idxOf c.toLower

/-- The number that digits write in a base, the last digit being that of the units. -/
def valueOf (base : Nat) (digits : List Char) : Nat :=
  Nat.ofDigits base (digits.map digitValue).reverse

/-- Going through the digits from the left comes to the same number. -/
theorem foldl_eq_ofDigits (base : Nat) (value : Char → Nat) (digits : List Char) :
    digits.foldl (fun n c => base * n + value c) 0 =
      Nat.ofDigits base (digits.map value).reverse := by
  rw [Nat.ofDigits_eq_foldr, List.foldr_reverse, List.foldl_map]
  simp only [Nat.cast_id, Nat.add_comm]

theorem foldl_eq_valueOf {base : Nat} {value : Char → Nat} {digits : List Char}
    (h : ∀ c ∈ digits, value c = digitValue c) :
    digits.foldl (fun n c => base * n + value c) 0 = valueOf base digits := by
  rw [foldl_eq_ofDigits, valueOf, List.map_congr_left h]

/-- Digits are among the first ASCII characters. -/
theorem toNat_lt_of_isHexDigit {c : Char} (h : isHexDigit c) : c.toNat < 128 := by
  simp only [isHexDigit, Bool.or_eq_true, Bool.and_eq_true, decide_eq_true_eq] at h
  rcases h with (hdigit | ⟨-, hlower⟩) | ⟨-, hupper⟩
  · exact Nat.lt_of_le_of_lt (Char.isDigit_iff_toNat.1 hdigit).2 (by decide)
  · exact Nat.lt_of_le_of_lt hlower (by decide)
  · exact Nat.lt_of_le_of_lt hupper (by decide)

theorem hexDigitValue_eq {c : Char} (h : isHexDigit c) : hexDigitValue c = digitValue c := by
  have htable : ∀ n < 128, isHexDigit (Char.ofNat n) →
      hexDigitValue (Char.ofNat n) = digitValue (Char.ofNat n) := by decide
  have hc := htable c.toNat (toNat_lt_of_isHexDigit h)
  rw [Char.ofNat_toNat] at hc
  exact hc h

theorem isHexDigit_of_isDigit {c : Char} (h : c.isDigit) : isHexDigit c := by
  simp [isHexDigit, h]

theorem ofHexDigits_eq_valueOf {digits : List Char} (h : ∀ c ∈ digits, isHexDigit c) :
    ofHexDigits digits = valueOf 16 digits :=
  foldl_eq_valueOf fun c hc => hexDigitValue_eq (h c hc)

theorem ofDecimalDigits_eq_valueOf {digits : List Char} (h : ∀ c ∈ digits, c.isDigit) :
    ofDecimalDigits digits = valueOf 10 digits := by
  refine foldl_eq_valueOf fun c hc => ?_
  rw [← hexDigitValue_eq (isHexDigit_of_isDigit (h c hc)), hexDigitValue, if_pos (h c hc)]

end RiscvDialect.Numeral

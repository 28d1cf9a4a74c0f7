import RiscvDialect.Numeral
import RiscvDialect.Proofs.Text.Run

/-!
# Numerals that were written

An integer is written in decimal digits, after a minus sign if it is negative. Both readers of
integers give the written integer back; the one that also knows hexadecimal numerals must not be
misled by what follows a lone zero.

## Main statements

* `readDecimalNat_eq_some`, `exists_of_readHexNat`: what numerals are
* `readDecimal_toString`, `readInteger_toString`: written integers are read back
-/

namespace RiscvDialect.Numeral

open Text

/-! ### Decimal digits -/

/-- A decimal numeral is read up to the first character that is no digit. -/
theorem readDecimalNat_append {digits rest : List Char} (hne : digits ≠ [])
    (hdigits : ∀ c ∈ digits, c.isDigit) (hrest : Stops Char.isDigit rest) :
    readDecimalNat (digits ++ rest) = some (ofDecimalDigits digits, rest) := by
  rw [readDecimalNat]
  rw [takeWhile_append_of_stops hdigits hrest, dropWhile_append_of_stops hdigits hrest]
  cases digits with
  | nil => exact absurd rfl hne
  | cons c digits => rfl

/-- What is read as a decimal numeral is a run of digits, at least one. -/
theorem readDecimalNat_eq_some {text rest : List Char} {n : Nat} :
    readDecimalNat text = some (n, rest) ↔
      ∃ digits, digits ≠ [] ∧ (∀ c ∈ digits, c.isDigit) ∧ Stops Char.isDigit rest ∧
        text = digits ++ rest ∧ n = ofDecimalDigits digits := by
  constructor
  · intro h
    obtain ⟨digits, r, ht, hdigits, hr, htake, hdrop⟩ := exists_run Char.isDigit text
    rw [readDecimalNat] at h
    rw [htake, hdrop] at h
    cases digits with
    | nil => simp at h
    | cons c digits =>
      cases h
      exact ⟨c :: digits, by simp, hdigits, hr, ht, rfl⟩
  · rintro ⟨digits, hne, hdigits, hrest, rfl, rfl⟩
    exact readDecimalNat_append hne hdigits hrest

theorem ofDecimalDigits_toDigits (n : Nat) : ofDecimalDigits (Nat.toDigits 10 n) = n :=
  Nat.ofDigitChars_ten_toDigits

theorem isDigit_of_mem_toDigits {n : Nat} {c : Char} (h : c ∈ Nat.toDigits 10 n) : c.isDigit :=
  Nat.isDigit_of_mem_toDigits (by decide) (by decide) h

/-- A number is read back from its digits. -/
theorem readDecimalNat_toDigits {n : Nat} {rest : List Char} (hrest : Stops Char.isDigit rest) :
    readDecimalNat (Nat.toDigits 10 n ++ rest) = some (n, rest) := by
  rw [readDecimalNat_append Nat.toDigits_ne_nil (fun _ => isDigit_of_mem_toDigits) hrest,
    ofDecimalDigits_toDigits]

/-! ### Signed integers -/

/-- An integer as it is written. -/
theorem toList_toString (i : Int) : (toString i).toList =
    if 0 ≤ i then Nat.toDigits 10 i.natAbs else '-' :: Nat.toDigits 10 i.natAbs := by
  rw [Int.toString_eq_repr, Int.repr_eq_if]
  split
  · next h => rw [Nat.toList_repr, show i.toNat = i.natAbs by omega]
  · next h => simp [show (-i).toNat = i.natAbs by omega]

/-- Digits start with a digit. -/
theorem exists_toDigits_eq_cons (n : Nat) :
    ∃ c digits, Nat.toDigits 10 n = c :: digits ∧ c.isDigit ∧ ∀ d ∈ digits, d.isDigit := by
  cases h : Nat.toDigits 10 n with
  | nil => exact absurd h Nat.toDigits_ne_nil
  | cons c digits =>
    have hall : ∀ d ∈ c :: digits, d.isDigit := fun d hd => isDigit_of_mem_toDigits (h ▸ hd)
    exact ⟨c, digits, rfl, hall c List.mem_cons_self,
      fun d hd => hall d (List.mem_cons_of_mem _ hd)⟩

/-- An integer starts with a digit or a minus sign. -/
theorem exists_toString_eq_cons (i : Int) :
    ∃ c later, (toString i).toList = c :: later ∧ (c.isDigit ∨ c = '-') := by
  rw [toList_toString]
  split
  · obtain ⟨c, digits, hc, hdigit, -⟩ := exists_toDigits_eq_cons i.natAbs
    exact ⟨c, digits, hc, .inl hdigit⟩
  · exact ⟨'-', _, rfl, .inr rfl⟩

/-- Where a digit comes first, there is no sign. -/
theorem readSigned_cons_of_isDigit {read : List Char → Option (Nat × List Char)} {c : Char}
    {text : List Char} (hc : c.isDigit) : readSigned read (c :: text) =
      (read (c :: text)).map fun (n, rest) => ((n : Int), rest) := by
  have hminus : c ≠ '-' := by
    rintro rfl
    exact absurd hc (by decide)
  exact readSigned.eq_2 _ _ fun _ h => hminus (List.cons.inj h).1

/-- A reader of numbers reads integers if it reads their digits. -/
theorem readSigned_toString {read : List Char → Option (Nat × List Char)} {i : Int}
    {rest : List Char}
    (hread : read (Nat.toDigits 10 i.natAbs ++ rest) = some (i.natAbs, rest)) :
    readSigned read ((toString i).toList ++ rest) = some (i, rest) := by
  rw [toList_toString]
  split
  · next hpos =>
    obtain ⟨c, digits, hc, hdigit, -⟩ := exists_toDigits_eq_cons i.natAbs
    rw [hc, List.cons_append] at hread ⊢
    rw [readSigned_cons_of_isDigit hdigit, hread]
    simp [Int.natAbs_of_nonneg hpos]
  · next hneg =>
    rw [List.cons_append, readSigned, hread]
    simp only [Option.map_some, Option.some.injEq, Prod.mk.injEq, and_true]
    omega

theorem readDecimal_toString {i : Int} {rest : List Char} (hrest : Stops Char.isDigit rest) :
    readDecimal ((toString i).toList ++ rest) = some (i, rest) :=
  readSigned_toString (readDecimalNat_toDigits hrest)

/-! ### Hexadecimal numerals -/

theorem isLower_iff {c : Char} : c.isLower ↔ 'a' ≤ c ∧ c ≤ 'z' :=
  Bool.and_eq_true_iff.trans (and_congr decide_eq_true_iff decide_eq_true_iff)

theorem isUpper_iff {c : Char} : c.isUpper ↔ 'A' ≤ c ∧ c ≤ 'Z' :=
  decide_eq_true_iff

theorem isAlphanum_of_isHexDigit {c : Char} (h : isHexDigit c) : c.isAlphanum := by
  simp only [isHexDigit, Bool.or_eq_true, Bool.and_eq_true, decide_eq_true_eq] at h
  refine Bool.or_eq_true_iff.2 ?_
  rcases h with (hdigit | hlower) | hupper
  · exact .inr hdigit
  · have hlast : c ≤ 'z' := Char.le_trans hlower.2 (by decide)
    exact .inl (Bool.or_eq_true_iff.2 (.inr (isLower_iff.2 ⟨hlower.1, hlast⟩)))
  · have hlast : c ≤ 'Z' := Char.le_trans hupper.2 (by decide)
    exact .inl (Bool.or_eq_true_iff.2 (.inl (isUpper_iff.2 ⟨hupper.1, hlast⟩)))

/-- A hexadecimal numeral is read up to the first character that is no hexadecimal digit. -/
theorem readHexNat_append {x : Char} {digits rest : List Char} (hx : x = 'x' ∨ x = 'X')
    (hne : digits ≠ []) (hdigits : ∀ c ∈ digits, isHexDigit c) (hrest : Stops isHexDigit rest) :
    readHexNat ('0' :: x :: (digits ++ rest)) = some (ofHexDigits digits, rest) := by
  simp only [readHexNat, if_pos hx, takeWhile_append_of_stops hdigits hrest,
    dropWhile_append_of_stops hdigits hrest]

/-- What is read as a hexadecimal numeral is `0x` and a run of hexadecimal digits, at least one. -/
theorem exists_of_readHexNat {text rest : List Char} {n : Nat}
    (h : readHexNat text = some (n, rest)) :
    ∃ x digits, (x = 'x' ∨ x = 'X') ∧ digits ≠ [] ∧ (∀ c ∈ digits, isHexDigit c) ∧
      Stops isHexDigit rest ∧ text = '0' :: x :: (digits ++ rest) ∧ n = ofHexDigits digits := by
  unfold readHexNat at h
  split at h
  · next x later =>
    split at h
    · next hx =>
      obtain ⟨digits, r, hlater, hdigits, hr, htake, hdrop⟩ := exists_run isHexDigit later
      rw [htake, hdrop] at h
      cases digits with
      | nil => simp at h
      | cons c digits =>
        cases h
        exact ⟨x, c :: digits, hx, by simp, hdigits, hr, by rw [hlater], rfl⟩
    · simp at h
  · simp at h

/-- Decimal digits are not taken for a hexadecimal numeral, unless they are a lone zero that is one
with what follows it. -/
theorem readHexNat_decimal {digits rest : List Char} (hne : digits ≠ [])
    (hdigits : ∀ c ∈ digits, c.isDigit)
    (hzero : digits = ['0'] → readHexNat ('0' :: rest) = none) :
    readHexNat (digits ++ rest) = none := by
  obtain ⟨c, later, rfl⟩ := List.exists_cons_of_ne_nil hne
  rw [List.cons_append]
  by_cases hz : c = '0'
  · subst hz
    cases later with
    | nil => exact hzero rfl
    | cons d later =>
      have hd := hdigits d (by simp)
      have hx : ¬(d = 'x' ∨ d = 'X') := by
        rintro (rfl | rfl) <;> exact absurd hd (by decide)
      simp [readHexNat, hx]
  · unfold readHexNat
    split
    · next heq => exact absurd (List.cons.inj heq).1 hz
    · rfl

/-- A lone zero is no hexadecimal numeral where a name could not go on. -/
theorem readHexNat_zero {rest : List Char} (hrest : Stops Char.isAlphanum rest) :
    readHexNat ('0' :: rest) = none := by
  cases rest with
  | nil => rfl
  | cons x rest =>
    have hx : ¬(x = 'x' ∨ x = 'X') := by
      rintro (rfl | rfl) <;> exact absurd (stops_cons.1 hrest) (by decide)
    simp [readHexNat, hx]

/-! ### Integers in either base -/

/-- Without a digit or a minus sign in front, there is no integer. -/
theorem readInteger_eq_none {c : Char} (hdigit : c.isDigit = false) (hminus : c ≠ '-')
    (text : List Char) : readInteger (c :: text) = none := by
  have hhex : readHexNat (c :: text) = none := by
    unfold readHexNat
    split
    · next heq => simp [(List.cons.inj heq).1] at hdigit
    · rfl
  have hnat : readDecimalNat (c :: text) = none := by
    simp [readDecimalNat, hdigit]
  rw [readInteger, readSigned.eq_2 _ _ fun _ h => hminus (List.cons.inj h).1, hhex, hnat]
  rfl

theorem readInteger_toString {i : Int} {rest : List Char} (hrest : Stops Char.isAlphanum rest) :
    readInteger ((toString i).toList ++ rest) = some (i, rest) := by
  refine readSigned_toString ?_
  rw [readHexNat_decimal Nat.toDigits_ne_nil (fun _ => isDigit_of_mem_toDigits)
    fun _ => readHexNat_zero hrest]
  exact readDecimalNat_toDigits (hrest.mono fun c hc => by simp [Char.isAlphanum, hc])

end RiscvDialect.Numeral

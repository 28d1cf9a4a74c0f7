/-!
# Numerals

Reading the integers of the two formats: decimal numerals, and hexadecimal ones marked by `0x`.
A numeral is read to its mathematical value first; whether the value fits into 64 bits is a
separate question, answered by `int64?`.

## Main definitions

* `readDecimal`, `readInteger`: the longest numeral at the start of a text, with its value
* `int64?`: the 64-bit integer of a value, if there is one

## Main statements

* `toInt_of_int64?`: `int64?` keeps the value
* `suffix_of_readDecimal`, `suffix_of_readInteger`: what is left is the end of what was given
-/

namespace RiscvDialect.Numeral

/-! ### Digits -/

/-- The ASCII hexadecimal digits. -/
def isHexDigit (c : Char) : Bool :=
  c.isDigit || ('a' ≤ c && c ≤ 'f') || ('A' ≤ c && c ≤ 'F')

/-- The value of a hexadecimal digit. -/
def hexDigitValue (c : Char) : Nat :=
  if c.isDigit then c.toNat - '0'.toNat
  else if 'a' ≤ c then c.toNat - 'a'.toNat + 10
  else c.toNat - 'A'.toNat + 10

/-- The number that a string of decimal digits writes. -/
def ofDecimalDigits (digits : List Char) : Nat :=
  Nat.ofDigitChars 10 digits 0

/-- The number that a string of hexadecimal digits writes. -/
def ofHexDigits (digits : List Char) : Nat :=
  digits.foldl (fun n c => 16 * n + hexDigitValue c) 0

/-! ### Reading numerals -/

/-- Read the longest run of decimal digits, at least one. -/
def readDecimalNat (text : List Char) : Option (Nat × List Char) :=
  match text.takeWhile Char.isDigit with
  | [] => none
  | digits => some (ofDecimalDigits digits, text.dropWhile Char.isDigit)

/-- Read `0x` or `0X` and the longest run of hexadecimal digits after it, at least one. -/
def readHexNat : List Char → Option (Nat × List Char)
  | '0' :: x :: rest =>
    if x = 'x' ∨ x = 'X' then
      match rest.takeWhile isHexDigit with
      | [] => none
      | digits => some (ofHexDigits digits, rest.dropWhile isHexDigit)
    else none
  | _ => none

/-- Read what `read` reads, negated if a minus sign stands before it. -/
def readSigned (read : List Char → Option (Nat × List Char)) :
    List Char → Option (Int × List Char)
  | '-' :: text => (read text).map fun (n, rest) => (-(n : Int), rest)
  | text => (read text).map fun (n, rest) => ((n : Int), rest)

/-- Read a decimal integer. -/
def readDecimal : List Char → Option (Int × List Char) :=
  readSigned readDecimalNat

/-- Read an integer that is hexadecimal if `0x` and a hexadecimal digit come first, else decimal:
`0x` alone is a zero followed by a letter. -/
def readInteger : List Char → Option (Int × List Char) :=
  readSigned fun text => readHexNat text <|> readDecimalNat text

/-! ### The 64-bit range -/

/-- The values of 64-bit integers. -/
def FitsInt64 (value : Int) : Prop :=
  -0x8000000000000000 ≤ value ∧ value ≤ 0x7FFFFFFFFFFFFFFF

instance (value : Int) : Decidable (FitsInt64 value) :=
  inferInstanceAs (Decidable (_ ∧ _))

/-- The 64-bit integer with the given value. -/
def int64? (value : Int) : Option Int64 :=
  if FitsInt64 value then some (Int64.ofInt value) else none

theorem toInt_of_int64? {value : Int} {i : Int64} (h : int64? value = some i) :
    i.toInt = value := by
  rw [int64?] at h
  split at h
  · next hv =>
    cases h
    exact Int64.toInt_ofInt_of_le hv.1 (Int.lt_add_one_of_le hv.2)
  · simp at h

@[simp] theorem int64?_toInt (i : Int64) : int64? i.toInt = some i := by
  have h : FitsInt64 i.toInt := ⟨i.le_toInt, Int.le_of_lt_add_one i.toInt_lt⟩
  simp [int64?, h]

/-! ### What is left of the text -/

theorem suffix_of_readDecimalNat {text rest : List Char} {n : Nat}
    (h : readDecimalNat text = some (n, rest)) : rest <:+ text := by
  rw [readDecimalNat] at h
  split at h
  · simp at h
  · cases h
    exact List.dropWhile_suffix _

theorem suffix_of_readHexNat {text rest : List Char} {n : Nat}
    (h : readHexNat text = some (n, rest)) : rest <:+ text := by
  unfold readHexNat at h
  split at h
  · next x tail =>
    split at h
    · split at h
      · simp at h
      · cases h
        exact (List.dropWhile_suffix _).trans
          ((List.suffix_cons x tail).trans (List.suffix_cons '0' _))
    · simp at h
  · simp at h

theorem suffix_of_readSigned {read : List Char → Option (Nat × List Char)}
    (hread : ∀ {text rest : List Char} {n : Nat}, read text = some (n, rest) → rest <:+ text)
    {text rest : List Char} {i : Int} (h : readSigned read text = some (i, rest)) :
    rest <:+ text := by
  unfold readSigned at h
  split at h
  · obtain ⟨⟨n, r⟩, hr, he⟩ := Option.map_eq_some_iff.1 h
    cases he
    exact (hread hr).trans (List.suffix_cons '-' _)
  · obtain ⟨⟨n, r⟩, hr, he⟩ := Option.map_eq_some_iff.1 h
    cases he
    exact hread hr

theorem suffix_of_readDecimal {text rest : List Char} {i : Int}
    (h : readDecimal text = some (i, rest)) : rest <:+ text :=
  suffix_of_readSigned suffix_of_readDecimalNat h

theorem suffix_of_readInteger {text rest : List Char} {i : Int}
    (h : readInteger text = some (i, rest)) : rest <:+ text := by
  refine suffix_of_readSigned (fun {text rest n} h => ?_) h
  cases hx : readHexNat text with
  | none => exact suffix_of_readDecimalNat (by simpa [hx] using h)
  | some r => exact suffix_of_readHexNat (by simpa [hx] using h)

end RiscvDialect.Numeral

import RiscvDialect.Assembly.Parser
import RiscvDialect.Generic.Parser
import RiscvDialect.Proofs.Numeral
import RiscvDialect.Proofs.Numeral.Value

/-!
# Literals of 64-bit integers

A literal is a numeral, after a minus sign or not. Assembly takes hexadecimal numerals behind a mark
and decimal ones; the generic format takes decimal ones only. A numeral is as long as it can be, and
a mark without a hexadecimal digit behind it is none, so that its zero is read alone.

The value of a literal is found first and compared with the range of 64-bit integers afterwards, so
the sign is part of what is compared. It makes a difference for the least integer, which has no
counterpart without the sign.

## Main definitions

* `LongestRun`, `DecimalNumeral`, `EitherNumeral`, `Literal`: literals at the start of a text
* `read64`: a reader of 64-bit integers, made from a reader of integers
* `Reads64`: what is asked of such a reader

## Main statements

* `readSigned_eq_some_iff`: readers of integers read literals
* `reads64`: readers of 64-bit integers do what is asked of them
* `read64_exact`: this for both formats, and integers that were written
-/

namespace RiscvDialect.Numeral

open Text

/-! ### Literals -/

/-- A text starts with digits of a class, at least one and as many as there are. -/
structure LongestRun (isDigit : Char → Bool) (text digits rest : List Char) : Prop where
  text_eq : text = digits ++ rest
  ne_nil : digits ≠ []
  forall_isDigit : ∀ c ∈ digits, isDigit c
  stops : Stops isDigit rest

/-- A text starts with a decimal numeral, and `rest` comes behind it. -/
inductive DecimalNumeral : List Char → Nat → List Char → Prop where
  | digits {text digits rest : List Char} (h : LongestRun Char.isDigit text digits rest) :
    DecimalNumeral text (valueOf 10 digits) rest

/-- What makes a zero in front of the text the start of a hexadecimal numeral. -/
def MarksHex (text : List Char) : Prop :=
  ∃ x c later, (x = 'x' ∨ x = 'X') ∧ isHexDigit c ∧ text = x :: c :: later

/-- A text starts with a hexadecimal numeral behind its mark, or else with a decimal one. -/
inductive EitherNumeral : List Char → Nat → List Char → Prop where
  | hexadecimal {x : Char} {text digits rest : List Char} (hx : x = 'x' ∨ x = 'X')
    (h : LongestRun isHexDigit text digits rest) :
    EitherNumeral ('0' :: x :: text) (valueOf 16 digits) rest
  | decimal {text rest : List Char} {n : Nat}
    (hmark : ∀ behind, text = '0' :: behind → ¬ MarksHex behind)
    (h : DecimalNumeral text n rest) : EitherNumeral text n rest

/-- A text starts with a numeral, after a minus sign or not. -/
inductive Literal (numeral : List Char → Nat → List Char → Prop) :
    List Char → Int → List Char → Prop where
  | nonneg {text rest : List Char} {n : Nat} (h : numeral text n rest) : Literal numeral text n rest
  | neg {text rest : List Char} {n : Nat} (h : numeral text n rest) :
    Literal numeral ('-' :: text) (-n) rest

/-! ### Numerals -/

variable {text rest : List Char} {n : Nat}

theorem readDecimalNat_eq_some_iff :
    readDecimalNat text = some (n, rest) ↔ DecimalNumeral text n rest := by
  rw [readDecimalNat_eq_some]
  constructor
  · rintro ⟨digits, hne, hdigits, hstops, rfl, rfl⟩
    rw [ofDecimalDigits_eq_valueOf hdigits]
    exact .digits ⟨rfl, hne, hdigits, hstops⟩
  · rintro ⟨⟨rfl, hne, hdigits, hstops⟩⟩
    exact ⟨_, hne, hdigits, hstops, rfl, (ofDecimalDigits_eq_valueOf hdigits).symm⟩

/-- A hexadecimal numeral is read behind its mark. -/
theorem readHexNat_of_longestRun {x : Char} {digits : List Char} (hx : x = 'x' ∨ x = 'X')
    (h : LongestRun isHexDigit text digits rest) :
    readHexNat ('0' :: x :: text) = some (valueOf 16 digits, rest) := by
  obtain ⟨rfl, hne, hdigits, hstops⟩ := h
  rw [readHexNat_append hx hne hdigits hstops, ofHexDigits_eq_valueOf hdigits]

theorem exists_longestRun {isDigit : Char → Bool} {c : Char} (hc : isDigit c) (text : List Char) :
    ∃ digits rest, LongestRun isDigit (c :: text) digits rest := by
  obtain ⟨digits, rest, htext, hdigits, hstops, htake, -⟩ := exists_run isDigit (c :: text)
  refine ⟨digits, rest, htext, ?_, hdigits, hstops⟩
  rw [← htake, List.takeWhile_cons_of_pos hc]
  exact List.cons_ne_nil _ _

/-- There is no hexadecimal numeral without a mark and a digit. -/
theorem readHexNat_eq_none_iff :
    readHexNat text = none ↔ ∀ behind, text = '0' :: behind → ¬ MarksHex behind := by
  constructor
  · rintro h _ rfl ⟨x, c, later, hx, hc, rfl⟩
    obtain ⟨digits, rest, hrun⟩ := exists_longestRun hc later
    cases h.symm.trans (readHexNat_of_longestRun hx hrun)
  · intro h
    rw [Option.eq_none_iff_forall_ne_some]
    rintro ⟨n, rest⟩ hread
    obtain ⟨x, digits, hx, hne, hdigits, -, rfl, -⟩ := exists_of_readHexNat hread
    obtain ⟨c, later, rfl⟩ := List.exists_cons_of_ne_nil hne
    exact h _ rfl ⟨x, c, _, hx, hdigits c List.mem_cons_self, rfl⟩

theorem readEither_eq_some_iff :
    (readHexNat text <|> readDecimalNat text) = some (n, rest) ↔ EitherNumeral text n rest := by
  constructor
  · intro h
    cases hhex : readHexNat text with
    | some result =>
      rw [hhex] at h
      cases h
      obtain ⟨x, digits, hx, hne, hdigits, hstops, rfl, rfl⟩ := exists_of_readHexNat hhex
      rw [ofHexDigits_eq_valueOf hdigits]
      exact .hexadecimal hx ⟨rfl, hne, hdigits, hstops⟩
    | none =>
      rw [hhex] at h
      exact .decimal (readHexNat_eq_none_iff.1 hhex) (readDecimalNat_eq_some_iff.1 h)
  · intro h
    cases h with
    | hexadecimal hx hrun =>
      rw [readHexNat_of_longestRun hx hrun]
      rfl
    | decimal hmark hdecimal =>
      rw [readHexNat_eq_none_iff.2 hmark]
      exact readDecimalNat_eq_some_iff.2 hdecimal

/-! ### Signs -/

/-- Numerals of neither kind start with a minus sign. -/
theorem DecimalNumeral.not_minus : ¬ DecimalNumeral ('-' :: text) n rest := by
  rintro ⟨⟨htext, hne, hdigits, -⟩⟩
  obtain ⟨c, later, rfl⟩ := List.exists_cons_of_ne_nil hne
  obtain ⟨rfl, -⟩ := List.cons.inj htext
  exact absurd (hdigits '-' List.mem_cons_self) (by decide)

theorem EitherNumeral.not_minus : ¬ EitherNumeral ('-' :: text) n rest := by
  intro h
  cases h with
  | decimal _ h => exact h.not_minus

variable {numeral : List Char → Nat → List Char → Prop}
  {read : List Char → Option (Nat × List Char)} {i : Int}

/-- A reader of numerals makes a reader of literals. -/
theorem readSigned_eq_some_iff
    (hread : ∀ text n rest, read text = some (n, rest) ↔ numeral text n rest)
    (hminus : ∀ text n rest, ¬ numeral ('-' :: text) n rest) :
    readSigned read text = some (i, rest) ↔ Literal numeral text i rest := by
  unfold readSigned
  split
  · next text =>
    constructor
    · intro h
      obtain ⟨⟨n, later⟩, hn, heq⟩ := Option.map_eq_some_iff.1 h
      cases heq
      exact .neg ((hread _ _ _).1 hn)
    · intro h
      cases h with
      | nonneg h => exact absurd h (hminus _ _ _)
      | neg h => rw [(hread _ _ _).2 h, Option.map_some]
  · next hsign =>
    constructor
    · intro h
      obtain ⟨⟨n, later⟩, hn, heq⟩ := Option.map_eq_some_iff.1 h
      cases heq
      exact .nonneg ((hread _ _ _).1 hn)
    · intro h
      cases h with
      | nonneg h => rw [(hread _ _ _).2 h, Option.map_some]
      | neg => exact absurd rfl (hsign _)

theorem readInteger_eq_some_iff :
    readInteger text = some (i, rest) ↔ Literal EitherNumeral text i rest :=
  readSigned_eq_some_iff (fun _ _ _ => readEither_eq_some_iff) fun _ _ _ => EitherNumeral.not_minus

theorem readDecimal_eq_some_iff :
    readDecimal text = some (i, rest) ↔ Literal DecimalNumeral text i rest :=
  readSigned_eq_some_iff (fun _ _ _ => readDecimalNat_eq_some_iff)
    fun _ _ _ => DecimalNumeral.not_minus

/-! ### The 64-bit range -/

/-- Read what `read` reads if it is an integer of 64 bits. If there is nothing to read, `what` was
expected. -/
def read64 (read : List Char → Option (Int × List Char)) (what : String) (text : List Char) :
    Except Fault (Int64 × List Char) :=
  match read text with
  | none => Fault.expected what text
  | some (i, rest) =>
    match int64? i with
    | some value => .ok (value, rest)
    | none => .error ⟨text, .integerRange⟩

/-- A reader of 64-bit integers gives the value of the literal at the start of a text, if it is one
of 64 bits, and leaves what comes behind the literal. A literal that is out of range is reported
where it starts, and so is that there is none. -/
structure Reads64 (literal : List Char → Int → List Char → Prop) (what : String)
    (read : List Char → Except Fault (Int64 × List Char)) : Prop where
  ok_iff : ∀ text i rest, (∃ value, read text = .ok (value, rest) ∧ value.toInt = i) ↔
    literal text i rest ∧ FitsInt64 i
  outOfRange_iff : ∀ text, read text = .error ⟨text, .integerRange⟩ ↔
    ∃ i rest, literal text i rest ∧ ¬ FitsInt64 i
  expected_iff : ∀ text, read text = .error ⟨text, .expected what⟩ ↔
    ∀ i rest, ¬ literal text i rest

theorem fitsInt64_toInt (value : Int64) : FitsInt64 value.toInt :=
  ⟨value.le_toInt, Int.le_of_lt_add_one value.toInt_lt⟩

/-- The three outcomes: there is no literal, it is out of range, or its value is read. -/
theorem read64_cases (read : List Char → Option (Int × List Char)) (what : String)
    (text : List Char) :
    (read text = none ∧ read64 read what text = .error ⟨text, .expected what⟩) ∨
    (∃ i rest, read text = some (i, rest) ∧ ¬ FitsInt64 i ∧
      read64 read what text = .error ⟨text, .integerRange⟩) ∨
    ∃ value rest, read text = some (Int64.toInt value, rest) ∧
      read64 read what text = .ok (value, rest) := by
  rw [read64]
  split
  · next h => exact .inl ⟨h, rfl⟩
  · next i rest h =>
    split
    · next value hvalue =>
      rw [← toInt_of_int64? hvalue] at h
      exact .inr (.inr ⟨value, rest, h, rfl⟩)
    · next hvalue =>
      have hrange : ¬ FitsInt64 i := by simpa [int64?] using hvalue
      exact .inr (.inl ⟨i, rest, h, hrange, rfl⟩)

/-- A reader of literals makes a reader of 64-bit integers. -/
theorem reads64 {literal : List Char → Int → List Char → Prop}
    {read : List Char → Option (Int × List Char)}
    (hread : ∀ text i rest, read text = some (i, rest) ↔ literal text i rest) (what : String) :
    Reads64 literal what (read64 read what) := by
  constructor <;> intro text <;> simp only [← hread]
  case ok_iff =>
    intro i rest
    rcases read64_cases read what text with ⟨hnone, h⟩ | ⟨j, later, hj, hrange, h⟩ |
      ⟨value, later, hvalue, h⟩
    · simp [hnone, h]
    · simp only [hj, h, reduceCtorEq, false_and, exists_false, false_iff, not_and]
      rintro ⟨⟩
      exact hrange
    · rw [hvalue, h]
      constructor
      · rintro ⟨_, ⟨⟩, rfl⟩
        exact ⟨rfl, fitsInt64_toInt value⟩
      · rintro ⟨⟨⟩, -⟩
        exact ⟨value, rfl, rfl⟩
  case outOfRange_iff =>
    rcases read64_cases read what text with ⟨hnone, h⟩ | ⟨j, later, hj, hrange, h⟩ |
      ⟨value, later, hvalue, h⟩
    · simp [hnone, h]
    · simpa [hj, h] using hrange
    · simpa [hvalue, h] using fitsInt64_toInt value
  case expected_iff =>
    rcases read64_cases read what text with ⟨hnone, h⟩ | ⟨j, later, hj, -, h⟩ |
      ⟨value, later, hvalue, h⟩
    · simp [hnone, h]
    · simp [hj, h]
    · simp [hvalue, h]

/-! ### The readers of the two formats -/

theorem readImmediate_eq_read64 (text : List Char) : Assembly.readImmediate text =
    (read64 readInteger SlotKind.immediate.describe text).map
      fun (value, rest) => (.full value, rest) := by
  rw [Assembly.readImmediate, read64]
  cases readInteger text with
  | none => rfl
  | some result => cases h : int64? result.1 <;> simp [Except.map, h]

/-- Where an integer may be missing, nothing is read if there is none or if it is out of range. -/
theorem readInt64_eq_read64 (what : String) (text : List Char) :
    Assembly.readInt64 text = (read64 readInteger what text).toOption := by
  rw [Assembly.readInt64, read64]
  cases readInteger text with
  | none => rfl
  | some result => cases h : int64? result.1 <;> simp [Except.toOption, h]

/-- Read the type of an integer behind its value. -/
def readTypeBehind (value : Int64) (rest : List Char) : Except Fault (SizedInt × List Char) := do
  let rest ← expectChar ':' (Generic.skipBlank rest)
  let typeText := Generic.skipBlank rest
  let (width, rest) ← Generic.readWidth typeText
  let i ← Fault.ofRefusal typeText (SizedInt.ofWidth value width)
  return (i, rest)

theorem readSizedInt_eq_read64 (text : List Char) : Generic.readSizedInt text =
    (read64 readDecimal "attribute value" text).bind
      fun (value, rest) => readTypeBehind value rest := by
  rw [Generic.readSizedInt, read64]
  cases readDecimal text with
  | none => rfl
  | some result => cases h : int64? result.1 <;> simp [Except.bind, readTypeBehind, h]

/-! ### Integers that were written -/

theorem read64_of_eq_some {read : List Char → Option (Int × List Char)} {value : Int64}
    (h : read text = some (value.toInt, rest)) (what : String) :
    read64 read what text = .ok (value, rest) := by
  simp [read64, h]

/-- Only zero is written as a lone zero. -/
theorem eq_zero_of_toDigits (h : Nat.toDigits 10 n = ['0']) : n = 0 := by
  rw [← ofDecimalDigits_toDigits n, h]
  rfl

/-- A zero must not be followed by what would make a hexadecimal numeral of it. Other integers start
with another digit. -/
theorem readInteger_toString_append (hrest : Stops Char.isDigit rest)
    (hzero : i = 0 → ¬ MarksHex rest) :
    readInteger ((toString i).toList ++ rest) = some (i, rest) := by
  refine readSigned_toString ?_
  have hhex : readHexNat (Nat.toDigits 10 i.natAbs ++ rest) = none := by
    refine readHexNat_decimal Nat.toDigits_ne_nil (fun _ => isDigit_of_mem_toDigits)
      fun hdigits => ?_
    have hi : i = 0 := Int.natAbs_eq_zero.1 (eq_zero_of_toDigits hdigits)
    refine readHexNat_eq_none_iff.2 fun behind hbehind => ?_
    rw [← (List.cons.inj hbehind).2]
    exact hzero hi
  rw [hhex]
  exact readDecimalNat_toDigits hrest

/-- Integers of 64 bits are read exactly. The readers of the two formats take the numerals of their
format, and all that they read of integers comes from them. What is written for an integer of 64
bits is read back by both, unless it could go on as a longer literal. -/
theorem read64_exact :
    (∀ what, Reads64 (Literal EitherNumeral) what (read64 readInteger what)) ∧
    (∀ what, Reads64 (Literal DecimalNumeral) what (read64 readDecimal what)) ∧
    (∀ text, Assembly.readImmediate text = (read64 readInteger SlotKind.immediate.describe text).map
        (fun (value, rest) => (.full value, rest)) ∧
      (∀ what, Assembly.readInt64 text = (read64 readInteger what text).toOption) ∧
      Generic.readSizedInt text = (read64 readDecimal "attribute value" text).bind
        fun (value, rest) => readTypeBehind value rest) ∧
    ∀ (what : String) (value : Int64) (rest : List Char), Stops Char.isDigit rest →
      ((value = 0 → ¬ MarksHex rest) →
        read64 readInteger what ((toString value.toInt).toList ++ rest) = .ok (value, rest)) ∧
      read64 readDecimal what ((toString value.toInt).toList ++ rest) = .ok (value, rest) := by
  refine ⟨reads64 fun _ _ _ => readInteger_eq_some_iff,
    reads64 fun _ _ _ => readDecimal_eq_some_iff, fun text => ?_,
    fun what value rest hrest => ?_⟩
  · exact ⟨readImmediate_eq_read64 text, fun what => readInt64_eq_read64 what text,
      readSizedInt_eq_read64 text⟩
  · refine ⟨fun hzero => ?_, read64_of_eq_some (readDecimal_toString hrest) what⟩
    have hmark : value.toInt = 0 → ¬ MarksHex rest := fun h => hzero (Int64.toInt_inj.1 h)
    exact read64_of_eq_some (readInteger_toString_append hrest hmark) what

/-- The least integer is read in front of a letter, and a zero is if no hexadecimal digit comes
behind the letter. -/
theorem read64_exact_least :
    read64 readInteger "an integer" ((toString Int64.minValue.toInt).toList ++ ['x', '1']) =
      .ok (Int64.minValue, ['x', '1']) ∧
    read64 readInteger "an integer" ((toString (0 : Int64).toInt).toList ++ ['x', 'g']) =
      .ok (0, ['x', 'g']) := by
  have hstops : ∀ c, Stops Char.isDigit ['x', c] := fun c => stops_cons.2 (by decide)
  have hmark : ¬ MarksHex ['x', 'g'] := by
    rintro ⟨x, c, later, -, hc, heq⟩
    cases heq
    exact absurd hc (by decide)
  exact ⟨(read64_exact.2.2.2 _ _ _ (hstops '1')).1 fun h => absurd h (by decide),
    (read64_exact.2.2.2 _ _ _ (hstops 'g')).1 fun _ => hmark⟩

end RiscvDialect.Numeral

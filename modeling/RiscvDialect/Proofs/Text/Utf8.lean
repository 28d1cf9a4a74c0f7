import Mathlib.Algebra.Group.Nat.Defs
import Mathlib.Data.List.Lex
import Mathlib.Tactic.SplitIfs

/-!
# The order of names in UTF-8

Names are compared character by character, by their code points. UTF-8 keeps this order: the first
byte grows with the number of bytes, and among characters with equally many bytes the code point is
spelled out from its most significant digit on. So the names in a table come in the order of their
bytes, too.

## Main definitions

* `utf8Bytes`: the bytes of a text
* `Spells`: a way to write numbers that keeps their order, whatever follows them

## Main statements

* `utf8EncodeChar_append_lt`: the bytes of characters are in the order of the characters
* `utf8Bytes_lt_utf8Bytes`: so are those of texts
-/

namespace RiscvDialect.Text

/-! ### Digits -/

/-- Numbers below a bound are spelled so that the smaller of two has the smaller spelling, and this
is settled before either spelling ends. -/
def Spells (spelling : Nat → List UInt8) (bound : Nat) : Prop :=
  ∀ a b, a < b → b < bound → ∀ s t, spelling a ++ s < spelling b ++ t

/-- The byte of the last digit of a number to some base, behind a mark. -/
def digitByte (base mark n : Nat) : UInt8 :=
  UInt8.ofNat (n % base + mark)

theorem toNat_digitByte {base mark : Nat} (hbase : 0 < base) (hmark : base + mark ≤ 256) (n : Nat) :
    (digitByte base mark n).toNat = n % base + mark := by
  have hdigit := Nat.mod_lt n hbase
  rw [digitByte, UInt8.toNat_ofNat']
  exact Nat.mod_eq_of_lt (by omega)

theorem cons_append_lt {byte byte' : UInt8} (h : byte < byte') (bytes bytes' s t : List UInt8) :
    (byte :: bytes) ++ s < (byte' :: bytes') ++ t :=
  List.cons_lt_cons_iff.2 (.inl h)

/-- One digit spells the numbers below its base. -/
theorem spells_digitByte {base mark : Nat} (hmark : base + mark ≤ 256) :
    Spells (fun n => [digitByte base mark n]) base := by
  intro a b hab hb s t
  refine cons_append_lt ?_ [] [] s t
  rw [UInt8.lt_iff_toNat_lt, toNat_digitByte (by omega) hmark, toNat_digitByte (by omega) hmark,
    Nat.mod_eq_of_lt hb, Nat.mod_eq_of_lt (hab.trans hb)]
  omega

/-- One more digit to the base of 64 spells 64 times as many numbers. -/
theorem Spells.append_digitByte {spelling : Nat → List UInt8} {bound : Nat}
    (h : Spells spelling bound) :
    Spells (fun n => spelling (n / 64) ++ [digitByte 64 0x80 n]) (bound * 64) := by
  intro a b hab hb s t
  rw [List.append_assoc, List.append_assoc]
  rcases Nat.lt_or_eq_of_le (Nat.div_le_div_right hab.le : a / 64 ≤ b / 64) with hdiv | hdiv
  · exact h _ _ hdiv (Nat.div_lt_of_lt_mul (by omega)) _ _
  · rw [hdiv]
    refine List.append_left_lt (cons_append_lt ?_ [] [] s t)
    rw [UInt8.lt_iff_toNat_lt, toNat_digitByte (by decide) (by decide),
      toNat_digitByte (by decide) (by decide)]
    omega

/-! ### Characters -/

/-- The first byte of a spelling, and up to three digits behind it. -/
def spelling (base mark : Nat) : Nat → Nat → List UInt8
  | 0, n => [digitByte base mark n]
  | digits + 1, n => spelling base mark digits (n / 64) ++ [digitByte 64 0x80 n]

theorem spells_spelling {base mark : Nat} (hmark : base + mark ≤ 256) (digits : Nat) :
    Spells (spelling base mark digits) (base * 64 ^ digits) := by
  induction digits with
  | zero =>
    rw [Nat.pow_zero, Nat.mul_one]
    exact spells_digitByte hmark
  | succ digits ih =>
    rw [Nat.pow_succ, ← Nat.mul_assoc]
    exact ih.append_digitByte

theorem exists_spelling_eq_cons (base mark digits n : Nat) :
    ∃ m bytes, spelling base mark digits n = digitByte base mark m :: bytes := by
  induction digits generalizing n with
  | zero => exact ⟨n, [], rfl⟩
  | succ digits ih =>
    obtain ⟨m, bytes, hm⟩ := ih (n / 64)
    exact ⟨m, bytes ++ [digitByte 64 0x80 n], by rw [spelling, hm, List.cons_append]⟩

/-- With a larger mark on the first byte, a spelling is larger. -/
theorem spelling_append_lt {base mark base' mark' : Nat} (hbase : 0 < base) (hbase' : 0 < base')
    (hmark : base + mark ≤ mark') (hmark' : base' + mark' ≤ 256) (digits digits' m n : Nat)
    (s t : List UInt8) :
    spelling base mark digits m ++ s < spelling base' mark' digits' n ++ t := by
  obtain ⟨a, bytes, ha⟩ := exists_spelling_eq_cons base mark digits m
  obtain ⟨b, bytes', hb⟩ := exists_spelling_eq_cons base' mark' digits' n
  have hdigit := Nat.mod_lt a hbase
  rw [ha, hb]
  refine cons_append_lt ?_ bytes bytes' s t
  rw [UInt8.lt_iff_toNat_lt, toNat_digitByte hbase (by omega), toNat_digitByte hbase' hmark']
  omega

theorem utf8EncodeChar_eq_spelling (c : Char) :
    String.utf8EncodeChar c =
      if c.toNat < 0x80 then spelling 0x80 0 0 c.toNat
      else if c.toNat < 0x800 then spelling 0x20 0xC0 1 c.toNat
      else if c.toNat < 0x10000 then spelling 0x10 0xE0 2 c.toNat
      else spelling 0x08 0xF0 3 c.toNat := by
  simp only [String.utf8EncodeChar, Char.toNat, spelling, digitByte, Nat.div_div_eq_div_mul,
    Nat.lt_succ_iff, List.cons_append, List.nil_append]
  split_ifs with hone
  · rw [Nat.mod_eq_of_lt (Nat.lt_succ_of_le hone)]
    rfl
  all_goals rfl

theorem toNat_lt (c : Char) : c.toNat < 0x110000 := by
  have hvalid : c.toNat < 0xD800 ∨ 0xDFFF < c.toNat ∧ c.toNat < 0x110000 := c.valid
  omega

/-- The bytes of two characters are in the order of the characters. -/
theorem utf8EncodeChar_append_lt {c d : Char} (h : c < d) (s t : List UInt8) :
    String.utf8EncodeChar c ++ s < String.utf8EncodeChar d ++ t := by
  have hlt : c.toNat < d.toNat := h
  have hd := toNat_lt d
  rw [utf8EncodeChar_eq_spelling, utf8EncodeChar_eq_spelling]
  split_ifs
  -- the larger character has no fewer bytes: with as many a digit decides, with more the first byte
  all_goals first
    | omega
    | exact spells_spelling (by decide) _ _ _ hlt (by omega) s t
    | exact spelling_append_lt (by decide) (by decide) (by decide) (by decide) _ _ _ _ s t

/-! ### Texts -/

/-- The bytes of a text in UTF-8. -/
def utf8Bytes (text : String) : List UInt8 :=
  text.toUTF8.data.toList

theorem utf8Bytes_eq_flatMap (text : String) :
    utf8Bytes text = text.toList.flatMap String.utf8EncodeChar := by
  conv_lhs => rw [← String.ofList_toList (s := text)]
  rw [utf8Bytes, String.toUTF8_eq_toByteArray, String.toByteArray_ofList, List.utf8Encode,
    List.data_toByteArray]

theorem flatMap_utf8EncodeChar_lt {s t : List Char} (h : s < t) :
    s.flatMap String.utf8EncodeChar < t.flatMap String.utf8EncodeChar := by
  induction s generalizing t with
  | nil =>
    cases t with
    | nil => simp at h
    | cons d t =>
      rw [List.flatMap_nil, List.flatMap_cons]
      cases hd : String.utf8EncodeChar d with
      | nil => exact absurd hd String.utf8EncodeChar_ne_nil
      | cons byte bytes => exact List.nil_lt_cons _ _
  | cons c s ih =>
    cases t with
    | nil => simp at h
    | cons d t =>
      rw [List.flatMap_cons, List.flatMap_cons]
      rcases List.cons_lt_cons_iff.1 h with hlt | ⟨rfl, hlt⟩
      · exact utf8EncodeChar_append_lt hlt _ _
      · exact List.append_left_lt (ih hlt)

/-- Texts and their bytes are in the same order. -/
theorem utf8Bytes_lt_utf8Bytes {s t : String} (h : s < t) : utf8Bytes s < utf8Bytes t := by
  rw [utf8Bytes_eq_flatMap, utf8Bytes_eq_flatMap]
  exact flatMap_utf8EncodeChar_lt (String.lt_iff.1 h)

end RiscvDialect.Text

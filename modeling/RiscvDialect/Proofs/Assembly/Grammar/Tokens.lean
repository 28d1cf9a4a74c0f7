import RiscvDialect.Proofs.Assembly.Grammar
import RiscvDialect.Proofs.Assembly.Operands

/-!
# Tokens are read by the grammar

Names, numerals and what may stand between them. Each reader of tokens takes off the start of a text
what the grammar has there, and takes it off wherever the text goes on with a character that could
not belong to it. Readers are greedy and the grammar is not; the two agree because what follows a
token in a statement is a space, a comma, a parenthesis, or nothing.

## Main statements

* `comma?_eq_some`: a comma with what is around it
* `readSymbol_iff`, `readLabel_eq_some`, `readRegister_eq_ok`: names
* `readInteger_of_literalText`: integers of any size
* `integerText_of_readInt64`, `readInt64_of_integerText`: integers of 64 bits
-/

namespace RiscvDialect.Assembly.Grammar

open Text

variable {text rest : List Char}

/-! ### Between the tokens -/

theorem inline_nil : Inline [] := by
  simp [Inline]

theorem Inline.notMem {space : List Char} (h : Inline space) {c : Char}
    (hc : isInlineSpace c = false) : c ∉ space := by
  intro hmem
  simp [h c hmem] at hc

/-- What is skipped is spaces and tabs. -/
theorem exists_skipInline (text : List Char) :
    ∃ space, Inline space ∧ text = space ++ skipInline text ∧
      Stops isInlineSpace (skipInline text) :=
  ⟨_, fun _ hc => List.mem_takeWhile_imp hc, List.takeWhile_append_dropWhile.symm,
    stops_dropWhile⟩

theorem skipInline_append {space : List Char} (hspace : Inline space)
    (hrest : Stops isInlineSpace rest) : skipInline (space ++ rest) = rest :=
  dropWhile_append_of_stops hspace hrest

/-- A character behind spaces and tabs is found when these are skipped. -/
theorem skipInline_eq_cons {c : Char} (hc : isInlineSpace c = false) :
    skipInline text = c :: rest ↔ ∃ space, Inline space ∧ text = space ++ c :: rest := by
  constructor
  · intro h
    obtain ⟨space, hspace, htext, -⟩ := exists_skipInline text
    exact ⟨space, hspace, by rw [← h, ← htext]⟩
  · rintro ⟨space, hspace, rfl⟩
    exact skipInline_append hspace (stops_cons.2 hc)

/-- A comma is read with all the spaces and tabs around it. -/
theorem comma?_eq_some : comma? text = some rest ↔
    ∃ comma, CommaText comma ∧ text = comma ++ rest ∧ Stops isInlineSpace rest := by
  constructor
  · intro h
    rw [comma?] at h
    split at h
    · next later hcomma =>
      cases h
      obtain ⟨before, hbefore, rfl⟩ := (skipInline_eq_cons (by decide)).1 hcomma
      obtain ⟨after, hafter, hlater, hstops⟩ := exists_skipInline later
      exact ⟨before ++ ',' :: after, .spaced hbefore hafter, by simp [← hlater], hstops⟩
    · simp at h
  · rintro ⟨_, ⟨hbefore, hafter⟩, rfl, hrest⟩
    rw [comma?, List.append_assoc, List.cons_append,
      (skipInline_eq_cons (by decide)).2 ⟨_, hbefore, rfl⟩]
    exact congrArg some (skipInline_append hafter hrest)

theorem readComma_eq_ok : readComma text = .ok rest ↔ comma? text = some rest := by
  rw [readComma]
  split
  · next h => simp [h]
  · next h => simp [h, Fault.expected]

/-- Spaces and tabs are no part of a name. -/
theorem not_isSymbolChar_of_isInlineSpace {c : Char} (hc : isInlineSpace c) :
    isSymbolChar c = false := by
  rcases isInlineSpace_iff.1 hc with rfl | rfl <;> decide

/-- Neither spaces and tabs nor what may stand behind them can be taken for a part of a name. -/
theorem stops_inline {space : List Char} (hspace : Inline space) (hrest : Stops isSymbolChar rest) :
    Stops isSymbolChar (space ++ rest) := by
  cases space with
  | nil => exact hrest
  | cons c space =>
    exact stops_cons.2 (not_isSymbolChar_of_isInlineSpace (hspace c List.mem_cons_self))

theorem CommaText.stops {comma : List Char} (h : CommaText comma) (rest : List Char) :
    Stops isSymbolChar (comma ++ rest) := by
  obtain ⟨hbefore, hafter⟩ := h
  rw [List.append_assoc]
  exact stops_inline hbefore (stops_cons.2 (by decide))

theorem CommaText.append {comma space : List Char} (h : CommaText comma) (hspace : Inline space) :
    CommaText (comma ++ space) := by
  obtain @⟨before, after, hbefore, hafter⟩ := h
  rw [List.append_assoc, List.cons_append]
  exact .spaced hbefore (List.forall_mem_append.2 ⟨hafter, hspace⟩)

/-! ### Names -/

/-- The longest symbol at the start of a text is read. -/
theorem readSymbol_iff {name : List Char} : readSymbol text = some (name, rest) ↔
    isSymbol name ∧ Stops isSymbolChar rest ∧ text = name ++ rest := by
  constructor
  · intro h
    refine ⟨(readSymbol_eq_some h).1, ?_, (readSymbol_eq_some h).2⟩
    unfold readSymbol at h
    split at h
    · simp at h
    · split at h
      · cases h
        exact stops_dropWhile
      · simp at h
  · rintro ⟨hname, hrest, rfl⟩
    exact readSymbol_append hname hrest

theorem readLabel_eq_some {l : Label} : readLabel text = some (l, rest) ↔
    Stops isSymbolChar rest ∧ text = l.name.toList ++ rest := by
  constructor
  · intro h
    rw [readLabel] at h
    split at h
    · next name later hname =>
      cases h
      obtain ⟨-, hrest, rfl⟩ := readSymbol_iff.1 hname
      exact ⟨hrest, by rw [String.toList_ofList]⟩
    · simp at h
  · rintro ⟨hrest, rfl⟩
    exact readLabel_append l hrest

/-- A register is read from one of its names, if that is as long as it can be. -/
theorem readRegister_eq_ok {r : Register} : readRegister text = .ok (r, rest) ↔
    ∃ name, Register.Named name r ∧ text = name.toList ++ rest ∧ Stops Char.isAlphanum rest := by
  constructor
  · intro h
    obtain ⟨name, later, htext, -, hstops, htake, hdrop⟩ := exists_run Char.isAlphanum text
    rw [readRegister] at h
    rw [htake, hdrop] at h
    split at h
    · simp [Fault.expected] at h
    · obtain ⟨r', hr', heq⟩ := Except.map_eq_ok.1 h
      cases heq
      have hname := Register.ofName_eq_ok.1 (Fault.of_ofRefusal_eq_ok hr')
      refine ⟨String.ofList name, hname, ?_, hstops⟩
      rw [String.toList_ofList, htext]
  · rintro ⟨name, hname, rfl, hrest⟩
    exact readRegister_append hname hrest

/-! ### Integers -/

theorem numeralText_of_read {n : Nat}
    (h : (Numeral.readHexNat text <|> Numeral.readDecimalNat text) = some (n, rest)) :
    ∃ numeral, NumeralText numeral n ∧ text = numeral ++ rest := by
  cases hhex : Numeral.readHexNat text with
  | some result =>
    rw [hhex] at h
    cases h
    obtain ⟨x, digits, hx, hne, hdigits, -, rfl, rfl⟩ := Numeral.exists_of_readHexNat hhex
    exact ⟨_, .hexadecimal hx hne hdigits, rfl⟩
  | none =>
    rw [hhex] at h
    obtain ⟨digits, hne, hdigits, -, rfl, rfl⟩ := Numeral.readDecimalNat_eq_some.1 h
    exact ⟨_, .decimal hne hdigits, rfl⟩

theorem read_of_numeralText {numeral : List Char} {n : Nat} (h : NumeralText numeral n)
    (hrest : Stops Char.isAlphanum rest) :
    (Numeral.readHexNat (numeral ++ rest) <|> Numeral.readDecimalNat (numeral ++ rest)) =
      some (n, rest) := by
  cases h with
  | decimal hne hdigits =>
    rw [Numeral.readHexNat_decimal hne hdigits fun _ => Numeral.readHexNat_zero hrest,
      Numeral.readDecimalNat_append hne hdigits
        (hrest.mono fun c hc => by simp [Char.isAlphanum, hc])]
    rfl
  | hexadecimal hx hne hdigits =>
    rw [List.cons_append, List.cons_append, Numeral.readHexNat_append hx hne hdigits
      (hrest.mono fun _ => Numeral.isAlphanum_of_isHexDigit)]
    rfl

/-- Numerals start with a digit. -/
theorem NumeralText.head {numeral : List Char} {n : Nat} (h : NumeralText numeral n) :
    ∃ c later, numeral = c :: later ∧ c.isDigit := by
  cases h with
  | decimal hne hdigits =>
    obtain ⟨c, later, rfl⟩ := List.exists_cons_of_ne_nil hne
    exact ⟨c, later, rfl, hdigits c List.mem_cons_self⟩
  | hexadecimal => exact ⟨_, _, rfl, by decide⟩

theorem NumeralText.isAlphanum {numeral : List Char} {n : Nat} (h : NumeralText numeral n) :
    ∀ c ∈ numeral, c.isAlphanum := by
  cases h with
  | decimal hne hdigits => exact fun c hc => by simp [Char.isAlphanum, hdigits c hc]
  | @hexadecimal x digits hx hne hdigits =>
    have hletter : x.isAlphanum := by rcases hx with rfl | rfl <;> decide
    simpa [hletter] using fun c hc => Numeral.isAlphanum_of_isHexDigit (hdigits c hc)

/-- Literals start with a digit or a minus sign. -/
theorem LiteralText.head {literal : List Char} {n : Int} (h : LiteralText literal n) :
    ∃ c later, literal = c :: later ∧ (c.isDigit ∨ c = '-') := by
  cases h with
  | nonneg hnumeral =>
    obtain ⟨c, later, rfl, hc⟩ := hnumeral.head
    exact ⟨c, later, rfl, .inl hc⟩
  | neg => exact ⟨'-', _, rfl, .inr rfl⟩

theorem LiteralText.startsOperand {literal : List Char} {n : Int} (h : LiteralText literal n) :
    StartsOperand literal := by
  obtain ⟨c, later, rfl, hc⟩ := h.head
  exact ⟨c, later, rfl, hc.imp_left fun hdigit => by simp [isSymbolChar, hdigit]⟩

/-- A literal is read whatever its value. -/
theorem readInteger_of_literalText {literal : List Char} {n : Int} (h : LiteralText literal n)
    (hrest : Stops Char.isAlphanum rest) :
    Numeral.readInteger (literal ++ rest) = some (n, rest) := by
  cases h with
  | nonneg hnumeral =>
    have hread := read_of_numeralText hnumeral hrest
    obtain ⟨c, later, rfl, hc⟩ := hnumeral.head
    rw [List.cons_append] at hread ⊢
    rw [Numeral.readInteger, Numeral.readSigned_cons_of_isDigit hc, hread]
    rfl
  | neg hnumeral =>
    have hread := read_of_numeralText hnumeral hrest
    rw [List.cons_append, Numeral.readInteger, Numeral.readSigned, hread]
    rfl

/-- An integer is a literal of its value. -/
theorem IntegerText.literalText {number : List Char} {value : Int64}
    (h : IntegerText number value) : LiteralText number value.toInt := by
  cases h with
  | nonneg hnumeral hvalue =>
    rw [hvalue]
    exact .nonneg hnumeral
  | neg hnumeral hvalue =>
    rw [hvalue]
    exact .neg hnumeral

theorem int64?_eq_some {i : Int} {value : Int64} :
    Numeral.int64? i = some value ↔ value.toInt = i := by
  constructor
  · exact Numeral.toInt_of_int64?
  · rintro rfl
    exact Numeral.int64?_toInt value

/-- An integer is read if it has 64 bits. -/
theorem readInt64_eq_some {value : Int64} : readInt64 text = some (value, rest) ↔
    ∃ i, Numeral.readInteger text = some (i, rest) ∧ value.toInt = i := by
  rw [readInt64]
  split
  · next i later hread =>
    rw [Option.map_eq_some_iff, hread]
    constructor
    · rintro ⟨v, hv, heq⟩
      cases heq
      exact ⟨i, rfl, int64?_eq_some.1 hv⟩
    · rintro ⟨_, heq, hvalue⟩
      cases heq
      exact ⟨value, int64?_eq_some.2 hvalue, rfl⟩
  · next hread => simp [hread]

theorem integerText_of_readInt64 {value : Int64} (h : readInt64 text = some (value, rest)) :
    ∃ number, IntegerText number value ∧ text = number ++ rest := by
  obtain ⟨i, hread, hvalue⟩ := readInt64_eq_some.1 h
  unfold Numeral.readInteger Numeral.readSigned at hread
  split at hread
  · obtain ⟨⟨n, later⟩, hn, heq⟩ := Option.map_eq_some_iff.1 hread
    cases heq
    obtain ⟨numeral, hnumeral, rfl⟩ := numeralText_of_read hn
    exact ⟨'-' :: numeral, .neg hnumeral hvalue, rfl⟩
  · obtain ⟨⟨n, later⟩, hn, heq⟩ := Option.map_eq_some_iff.1 hread
    cases heq
    obtain ⟨numeral, hnumeral, rfl⟩ := numeralText_of_read hn
    exact ⟨numeral, .nonneg hnumeral hvalue, rfl⟩

theorem readInt64_of_integerText {number : List Char} {value : Int64}
    (h : IntegerText number value) (hrest : Stops Char.isAlphanum rest) :
    readInt64 (number ++ rest) = some (value, rest) :=
  readInt64_eq_some.2 ⟨_, readInteger_of_literalText h.literalText hrest, rfl⟩

theorem readImmediate_eq_ok {i : SizedInt} : readImmediate text = .ok (i, rest) ↔
    ∃ value, readInt64 text = some (value, rest) ∧ i = .full value := by
  rw [readImmediate, readInt64]
  split
  · next hread => simp [hread, Fault.expected]
  · next number later hread =>
    rw [hread]
    split
    · next value hvalue => simp [hvalue, and_comm, eq_comm]
    · next hvalue => simp [hvalue]

end RiscvDialect.Assembly.Grammar

import RiscvDialect.Proofs.Assembly.Grammar.Tokens

/-!
# Operands are read by the grammar

The readers of operands agree with the grammar, in both forms. That loads and stores are tried with
an address first does no harm: where two registers stand side by side, no displacement can be found,
so no plain operands are taken for an address; and only an address has a parenthesis.

## Main statements

* `operandText_of_readOperand`, `readOperand_of_operandText`: single operands
* `plainText_of_readOperands`, `readOperands_of_plainText`: operands in the order of the slots
* `addressText_of_readMemory`, `readMemory_of_addressText`: a register and an address
* `readMemory_of_plainText`: the two forms are told apart
-/

namespace RiscvDialect.Assembly.Grammar

open Text

variable {text rest : List Char}

/-! ### Operands -/

theorem operandText_of_readOperand {kind : SlotKind} {operand : Operand}
    (h : readOperand kind text = .ok (operand, rest)) :
    ∃ written, OperandText kind written operand ∧ text = written ++ rest := by
  cases kind with
  | register =>
    obtain ⟨⟨r, later⟩, hread, heq⟩ := Except.map_eq_ok.1 h
    cases heq
    obtain ⟨name, hname, htext, -⟩ := readRegister_eq_ok.1 hread
    exact ⟨_, .register hname, htext⟩
  | immediate =>
    obtain ⟨⟨i, later⟩, hread, heq⟩ := Except.map_eq_ok.1 h
    cases heq
    obtain ⟨value, hvalue, rfl⟩ := readImmediate_eq_ok.1 hread
    obtain ⟨number, hnumber, htext⟩ := integerText_of_readInt64 hvalue
    exact ⟨number, .immediate hnumber, htext⟩
  | offset =>
    obtain ⟨⟨o, later⟩, hread, heq⟩ := Except.map_eq_ok.1 h
    cases heq
    rw [readOffset] at hread
    split at hread
    · next value later hvalue =>
      cases hread
      obtain ⟨number, hnumber, htext⟩ := integerText_of_readInt64 hvalue
      exact ⟨number, .number hnumber, htext⟩
    · split at hread
      · next l later hlabel =>
        cases hread
        exact ⟨_, .label l, (readLabel_eq_some.1 hlabel).2⟩
      · simp [Fault.expected] at hread

theorem readOperand_of_operandText {kind : SlotKind} {written : List Char} {operand : Operand}
    (h : OperandText kind written operand) (hrest : Stops isSymbolChar rest) :
    readOperand kind (written ++ rest) = .ok (operand, rest) := by
  cases h with
  | register hname =>
    rw [readOperand, readRegister_append hname (stops_isAlphanum hrest)]
    rfl
  | immediate hnumber =>
    have hread := readInt64_of_integerText hnumber (stops_isAlphanum hrest)
    rw [readOperand, readImmediate_eq_ok.2 ⟨_, hread, rfl⟩]
    rfl
  | number hnumber =>
    have hread := readInt64_of_integerText hnumber (stops_isAlphanum hrest)
    rw [readOperand, readOffset, hread]
    rfl
  | label l =>
    rw [readOperand, readOffset, readInt64_label, readLabel_append l hrest]
    rfl

/-- Operands in the order of the slots. -/
theorem plainText_of_readOperands {slots : List Slot} {filled : List (Slot × Operand)}
    (h : readOperands slots text = .ok (filled, rest)) :
    ∃ written, PlainText slots written filled ∧ text = written ++ rest := by
  induction slots generalizing text filled with
  | nil =>
    cases h
    exact ⟨[], .none, rfl⟩
  | cons slot slots ih =>
    cases slots with
    | nil =>
      obtain ⟨⟨operand, later⟩, hread, heq⟩ := Except.map_eq_ok.1 h
      cases heq
      obtain ⟨written, hwritten, htext⟩ := operandText_of_readOperand hread
      exact ⟨written, .last hwritten, htext⟩
    | cons next slots =>
      rw [readOperands.eq_3 _ _ _ (by simp)] at h
      obtain ⟨⟨operand, afterOperand⟩, hread, h⟩ := Except.bind_eq_ok.1 h
      obtain ⟨afterComma, hcomma, h⟩ := Except.bind_eq_ok.1 h
      obtain ⟨⟨later, afterLater⟩, hlater, h⟩ := Except.bind_eq_ok.1 h
      cases h
      obtain ⟨written, hwritten, rfl⟩ := operandText_of_readOperand hread
      obtain ⟨comma, hspaced, rfl, -⟩ := comma?_eq_some.1 (readComma_eq_ok.1 hcomma)
      obtain ⟨writtenLater, hwrittenLater, rfl⟩ := ih hlater
      exact ⟨_, .more hwritten hspaced hwrittenLater, by simp⟩

/-! ### Where an operand starts -/

theorem OperandText.startsOperand {kind : SlotKind} {written : List Char} {operand : Operand}
    (h : OperandText kind written operand) : StartsOperand written := by
  cases h with
  | register hname => exact startsOperand_of_named hname
  | immediate hnumber => exact hnumber.literalText.startsOperand
  | number hnumber => exact hnumber.literalText.startsOperand
  | label l => exact startsOperand_of_isSymbol l.isSymbol_name

theorem PlainText.startsOperand {slots : List Slot} {written : List Char}
    {filled : List (Slot × Operand)} (h : PlainText slots written filled) (hne : slots ≠ []) :
    StartsOperand written := by
  cases h with
  | none => exact absurd rfl hne
  | last hoperand => exact hoperand.startsOperand
  | more hoperand => exact hoperand.startsOperand.append _

/-- Operands do not start with spaces and tabs. -/
theorem PlainText.stops_isInlineSpace {slots : List Slot} {written : List Char}
    {filled : List (Slot × Operand)} (h : PlainText slots written filled) :
    Stops isInlineSpace written := by
  cases slots with
  | nil =>
    cases h
    exact stops_nil
  | cons slot slots => exact (h.startsOperand (by simp)).stops_isInlineSpace

theorem AddressText.startsOperand {written : List Char} {value base : Register}
    {displacement : Int64} (h : AddressText written value displacement base) :
    StartsOperand written := by
  cases h with
  | parenthesized hvalue => exact (startsOperand_of_named hvalue).append _

/-- Operands are read up to the first character that is no part of a name. -/
theorem readOperands_of_plainText {slots : List Slot} {written : List Char}
    {filled : List (Slot × Operand)} (h : PlainText slots written filled)
    (hrest : Stops isSymbolChar rest) :
    readOperands slots (written ++ rest) = .ok (filled, rest) := by
  induction h with
  | none => rfl
  | last hoperand =>
    rw [readOperands, readOperand_of_operandText hoperand hrest]
    rfl
  | @more slot next slots written comma later operand filled hoperand hcomma hlater ih =>
    have hstart := ((hlater.startsOperand (by simp)).append rest).stops_isInlineSpace
    have hread := readOperand_of_operandText hoperand (hcomma.stops (later ++ rest))
    have hskip := readComma_eq_ok.2 (comma?_eq_some.2 ⟨comma, hcomma, rfl, hstart⟩)
    rw [List.append_assoc, List.append_assoc, readOperands.eq_3 _ _ _ (by simp), hread]
    simp only [bind, Except.bind, hskip, ih, pure, Except.pure]

/-! ### Addresses -/

/-- A displacement is read if there is one. -/
theorem displacementText_of_readInt64 {displacement : Int64}
    (h : (readInt64 text).getD (0, text) = (displacement, rest)) :
    ∃ number, DisplacementText number displacement ∧ text = number ++ rest := by
  cases hread : readInt64 text with
  | none =>
    rw [hread] at h
    cases h
    exact ⟨[], .missing, rfl⟩
  | some result =>
    rw [hread] at h
    cases h
    obtain ⟨number, hnumber, htext⟩ := integerText_of_readInt64 hread
    exact ⟨number, .integer hnumber, htext⟩

/-- Between its two registers, a comma, a displacement and an opening parenthesis are read. Without
a displacement the comma takes all the space before the parenthesis. -/
theorem exists_read_displacement {comma number space : List Char} {displacement : Int64}
    (hcomma : CommaText comma) (hnumber : DisplacementText number displacement)
    (hspace : Inline space) (rest : List Char) :
    ∃ afterComma afterNumber,
      comma? (comma ++ (number ++ (space ++ '(' :: rest))) = some afterComma ∧
      (readInt64 afterComma).getD (0, afterComma) = (displacement, afterNumber) ∧
      skipInline afterNumber = '(' :: rest := by
  have hopen : Stops isInlineSpace ('(' :: rest) := stops_cons.2 (by decide)
  cases hnumber with
  | missing =>
    refine ⟨'(' :: rest, '(' :: rest, ?_, ?_, skipInline_of_stops hopen⟩
    · exact comma?_eq_some.2 ⟨comma ++ space, hcomma.append hspace, by simp, hopen⟩
    · rw [readInt64, Numeral.readInteger_eq_none (by decide) (by decide)]
      rfl
  | integer hinteger =>
    have hafter : Stops isSymbolChar (space ++ '(' :: rest) :=
      stops_inline hspace (stops_cons.2 (by decide))
    refine ⟨_, space ++ '(' :: rest, comma?_eq_some.2 ⟨comma, hcomma, rfl, ?_⟩, ?_, ?_⟩
    · exact (hinteger.literalText.startsOperand.append _).stops_isInlineSpace
    · rw [readInt64_of_integerText hinteger (stops_isAlphanum hafter)]
      rfl
    · exact skipInline_append hspace hopen

/-- The operands that a register and an address fill. -/
def addressOperands (slot : Slot) (value : Register) (displacement : Int64) (base : Register) :
    List (Slot × Operand) :=
  [(slot, .register value), (.rs1, .register base), (.immediate, .immediate (.full displacement))]

/-- A register and an address are read as the grammar has them. -/
theorem addressText_of_readMemory {slot : Slot} {filled : List (Slot × Operand)}
    (h : readMemory slot text = .ok (some (filled, rest))) :
    ∃ written value displacement base, AddressText written value displacement base ∧
      text = written ++ rest ∧ filled = addressOperands slot value displacement base := by
  rw [readMemory] at h
  split at h
  · obtain ⟨⟨value, afterValue⟩, hvalue, h⟩ := Except.bind_eq_ok.1 h
    dsimp only at h
    split at h
    · simp [pure, Except.pure] at h
    · next afterComma hcomma =>
      generalize hget : (readInt64 afterComma).getD (0, afterComma) = result at h
      obtain ⟨displacement, afterNumber⟩ := result
      dsimp only at h
      split at h
      · next afterOpen hopen =>
        split at h
        · obtain ⟨⟨base, afterBase⟩, hbase, h⟩ := Except.bind_eq_ok.1 h
          dsimp only at h
          split at h
          · next hclose =>
            cases h
            obtain ⟨valueName, hvalueName, rfl, -⟩ := readRegister_eq_ok.1 hvalue
            obtain ⟨comma, hspaced, rfl, -⟩ := comma?_eq_some.1 hcomma
            obtain ⟨number, hnumber, rfl⟩ := displacementText_of_readInt64 hget
            obtain ⟨beforeOpen, hbeforeOpen, rfl⟩ := (skipInline_eq_cons (by decide)).1 hopen
            obtain ⟨space, hspace, hafterOpen, -⟩ := exists_skipInline afterOpen
            obtain ⟨baseName, hbaseName, hafterSpace, -⟩ := readRegister_eq_ok.1 hbase
            obtain ⟨beforeClose, hbeforeClose, rfl⟩ := (skipInline_eq_cons (by decide)).1 hclose
            rw [hafterSpace] at hafterOpen
            refine ⟨_, value, displacement, base, .parenthesized hvalueName hspaced hnumber
              hbeforeOpen hspace hbaseName hbeforeClose, ?_, rfl⟩
            simp [hafterOpen]
          · simp [pure, Except.pure] at h
        · simp [pure, Except.pure] at h
      · simp [pure, Except.pure] at h
  · simp [pure, Except.pure] at h

theorem readMemory_of_addressText {slot : Slot} {written : List Char} {value base : Register}
    {displacement : Int64} (h : AddressText written value displacement base) (rest : List Char) :
    readMemory slot (written ++ rest) =
      .ok (some (addressOperands slot value displacement base, rest)) := by
  obtain @⟨valueName, baseName, _, _, _, comma, number, beforeOpen, afterOpen, beforeClose, hvalue,
    hcomma, hnumber, hbeforeOpen, hafterOpen, hbase, hbeforeClose⟩ := h
  have hclose : Stops isSymbolChar (beforeClose ++ ')' :: rest) :=
    stops_inline hbeforeClose (stops_cons.2 (by decide))
  have hreadBase := readRegister_append hbase (stops_isAlphanum hclose)
  have hskipOpen := skipInline_append hafterOpen
    ((startsOperand_of_named hbase).append (beforeClose ++ ')' :: rest)).stops_isInlineSpace
  have hskipClose : skipInline (beforeClose ++ ')' :: rest) = ')' :: rest :=
    skipInline_append hbeforeClose (stops_cons.2 (by decide))
  obtain ⟨afterComma, afterNumber, hreadComma, hreadNumber, hskipNumber⟩ :=
    exists_read_displacement hcomma hnumber hbeforeOpen
      (afterOpen ++ (baseName.toList ++ (beforeClose ++ ')' :: rest)))
  have hreadValue := readRegister_append hvalue (stops_isAlphanum (hcomma.stops
    (number ++ (beforeOpen ++ '(' :: (afterOpen ++ (baseName.toList ++ (beforeClose ++
      ')' :: rest)))))))
  simp only [List.append_assoc, List.cons_append, List.nil_append]
  rw [readMemory, if_pos (startsName_of_named hvalue _), hreadValue]
  simp only [bind, Except.bind, hreadComma, hreadNumber, hskipNumber, hskipOpen,
    startsName_of_named hbase, if_true, hreadBase, hskipClose, pure, Except.pure, addressOperands]

/-! ### Telling the two forms apart -/

/-- Where a register comes first, operands start with a letter. -/
theorem PlainText.head_isAlpha {slot : Slot} {slots : List Slot} {written : List Char}
    {filled : List (Slot × Operand)} (h : PlainText (slot :: slots) written filled)
    (hslot : slot.kind = .register) : ∃ c later, written = c :: later ∧ c.isAlpha := by
  have hhead : ∀ {text operand}, OperandText slot.kind text operand →
      ∃ c later, text = c :: later ∧ c.isAlpha := by
    intro text operand hoperand
    rw [hslot] at hoperand
    cases hoperand with
    | register hname => exact hname.head_isAlpha
  cases h with
  | last hoperand => exact hhead hoperand
  | more hoperand =>
    obtain ⟨c, later, rfl, hc⟩ := hhead hoperand
    exact ⟨c, _, rfl, hc⟩

/-- Behind a register and a comma, an address needs a displacement or a parenthesis. -/
theorem readMemory_of_not_address (valueSlot : Slot) {name : String} {r : Register}
    {comma : List Char} (hname : Register.Named name r) (hcomma : CommaText comma)
    (hspace : Stops isInlineSpace text) (hinteger : readInt64 text = none)
    (hopen : text.head? ≠ some '(') :
    readMemory valueSlot (name.toList ++ (comma ++ text)) = .ok none := by
  have hread := readRegister_append hname (stops_isAlphanum (hcomma.stops text))
  have hskip := comma?_eq_some.2 ⟨comma, hcomma, rfl, hspace⟩
  rw [readMemory, if_pos (startsName_of_named hname _), hread]
  simp only [bind, Except.bind, hskip, hinteger, Option.getD_none, skipInline_of_stops hspace]
  split
  · simp at hopen
  · rfl

/-- Two registers are not taken for a register and an address. -/
theorem readMemory_of_plainText (valueSlot : Slot) {first second : Slot} {slots : List Slot}
    {written : List Char} {filled : List (Slot × Operand)} (hfirst : first.kind = .register)
    (hsecond : second.kind = .register) (h : PlainText (first :: second :: slots) written filled)
    (rest : List Char) : readMemory valueSlot (written ++ rest) = .ok none := by
  cases h with
  | more hoperand hcomma hlater =>
    rw [hfirst] at hoperand
    cases hoperand with
    | register hname =>
      have hspace := ((hlater.startsOperand (by simp)).append rest).stops_isInlineSpace
      obtain ⟨c, tail, rfl, hc⟩ := hlater.head_isAlpha hsecond
      rw [List.append_assoc, List.append_assoc]
      refine readMemory_of_not_address valueSlot hname hcomma hspace
        (readInt64_of_isSymbolStart (by simp [isSymbolStart, hc]) _) ?_
      rintro ⟨⟩
      exact absurd hc (by decide)

/-! ### Characters -/

theorem LiteralText.chars {literal : List Char} {n : Int} (h : LiteralText literal n) :
    ∀ c ∈ literal, isSymbolChar c ∨ c = '-' := by
  intro c hc
  cases h with
  | nonneg hnumeral => exact .inl (isSymbolChar_of_isAlphanum (hnumeral.isAlphanum c hc))
  | neg hnumeral =>
    rcases List.mem_cons.1 hc with rfl | hc
    · exact .inr rfl
    · exact .inl (isSymbolChar_of_isAlphanum (hnumeral.isAlphanum c hc))

/-- Operands are made of the characters of names and of minus signs. -/
theorem OperandText.chars {kind : SlotKind} {written : List Char} {operand : Operand}
    (h : OperandText kind written operand) : ∀ c ∈ written, isSymbolChar c ∨ c = '-' := by
  cases h with
  | register hname => exact fun c hc => .inl (isSymbolChar_of_isAlphanum (hname.isAlphanum c hc))
  | immediate hnumber => exact hnumber.literalText.chars
  | number hnumber => exact hnumber.literalText.chars
  | label l => exact fun c hc => .inl (isSymbolChar_of_mem l.isSymbol_name hc)

theorem CommaText.chars {comma : List Char} (h : CommaText comma) :
    ∀ c ∈ comma, c = ',' ∨ isInlineSpace c := by
  obtain ⟨hbefore, hafter⟩ := h
  intro c hc
  rcases List.mem_append.1 hc with hc | hc
  · exact .inr (hbefore c hc)
  · exact (List.mem_cons.1 hc).imp_right (hafter c)

theorem PlainText.chars {slots : List Slot} {written : List Char} {filled : List (Slot × Operand)}
    (h : PlainText slots written filled) :
    ∀ c ∈ written, isSymbolChar c ∨ c = '-' ∨ c = ',' ∨ isInlineSpace c := by
  have hoperand : ∀ {kind text operand}, OperandText kind text operand →
      ∀ c ∈ text, isSymbolChar c ∨ c = '-' ∨ c = ',' ∨ isInlineSpace c :=
    fun htext c hc => (htext.chars c hc).imp_right .inl
  induction h with
  | none => simp
  | last htext => exact hoperand htext
  | more htext hcomma hlater ih =>
    intro c hc
    rcases List.mem_append.1 hc with hc | hc
    · exact hoperand htext c hc
    · rcases List.mem_append.1 hc with hc | hc
      · exact .inr (.inr (hcomma.chars c hc))
      · exact ih c hc

/-- Without an address, operands contain no parenthesis. -/
theorem PlainText.open_notMem {slots : List Slot} {written : List Char}
    {filled : List (Slot × Operand)} (h : PlainText slots written filled) : '(' ∉ written :=
  fun hmem => absurd (h.chars _ hmem) (by decide)

theorem AddressText.open_mem {written : List Char} {value base : Register} {displacement : Int64}
    (h : AddressText written value displacement base) : '(' ∈ written := by
  obtain ⟨⟩ := h
  simp

end RiscvDialect.Assembly.Grammar

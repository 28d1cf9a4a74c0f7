import RiscvDialect.Proofs.Assembly.Places

/-!
# Integers that are out of range

The integers of assembly have 64 bits. A literal of any other value is as much of an integer as one
of 64 bits, and where nothing but an integer may stand it is reported to be out of range. Elsewhere
the reader has a second choice and goes on to try it: an offset could be a label, and the address of
a load or a store could be a register, since a displacement may be missing. It is then the second
choice that the report is about. In all cases the report is placed where the literal starts.

## Main definitions

* `Place.reason`, `Place.problem`: what is wrong with a literal that is out of range

## Main statements

* `readOperand_outOfRange`, `readInstructionOperands_outOfRange`: operands are not read
* `readCode_outOfRange`, `LineAround.readLine_outOfRange`: nor are statements and lines
* `parse_outOfRange`: texts in which an integer is replaced by a literal that is out of range
-/

namespace RiscvDialect.Assembly.Grammar

open Text

variable {literal rest before after tail : List Char} {n : Int}

/-! ### Single literals -/

theorem readInt64_outOfRange (h : LiteralText literal n) (hn : ¬ Numeral.FitsInt64 n)
    (hrest : Stops Char.isAlphanum rest) : readInt64 (literal ++ rest) = none := by
  rw [readInt64, readInteger_of_literalText h hrest]
  simp [Numeral.int64?, hn]

theorem readImmediate_outOfRange (h : LiteralText literal n) (hn : ¬ Numeral.FitsInt64 n)
    (hrest : Stops Char.isAlphanum rest) :
    readImmediate (literal ++ rest) = .error ⟨literal ++ rest, .integerRange⟩ := by
  rw [readImmediate, readInteger_of_literalText h hrest]
  simp [Numeral.int64?, hn]

/-- Literals are no labels. -/
theorem readLabel_of_literalText (h : LiteralText literal n) :
    readLabel (literal ++ rest) = none := by
  obtain ⟨c, later, rfl, hc⟩ := h.head
  have hstart : isSymbolStart c = false := by
    rw [Bool.eq_false_iff]
    intro hstart
    rcases hc with hdigit | rfl
    · exact absurd hdigit (by simp [not_isDigit_of_isSymbolStart hstart])
    · exact absurd hstart (by decide)
  have hread : readSymbol (c :: later ++ rest) = none := by simp [readSymbol, hstart]
  unfold readLabel
  split
  · next hname => cases hread.symm.trans hname
  · rfl

theorem readOffset_outOfRange (h : LiteralText literal n) (hn : ¬ Numeral.FitsInt64 n)
    (hrest : Stops Char.isAlphanum rest) : readOffset (literal ++ rest) =
      .error ⟨literal ++ rest, .expected SlotKind.offset.describe⟩ := by
  rw [readOffset, readInt64_outOfRange h hn hrest, readLabel_of_literalText h]
  rfl

/-- No name of a register starts with a digit. -/
theorem ofName_of_isDigit {name : String} {c : Char} {later : List Char}
    (hname : name.toList = c :: later) (hc : c.isDigit) :
    Register.ofName name = .error (.registerName name) := by
  have hlookup : Register.abiNames.lookup name = none := by
    rw [Option.eq_none_iff_forall_ne_some]
    intro r hr
    have hnamed : Register.Named name r := .abi (Register.mem_abiNames_of_lookup hr)
    obtain ⟨d, tail, hcons, hd⟩ := hnamed.head_isAlpha
    obtain ⟨rfl, -⟩ := List.cons.inj (hname.symm.trans hcons)
    have hstart : isSymbolStart c := by simp [isSymbolStart, hd]
    simp [not_isDigit_of_isSymbolStart hstart] at hc
  rw [Register.ofName, hlookup]
  dsimp only
  split
  · next heq =>
    rw [hname] at heq
    cases heq
    exact absurd hc (by decide)
  · rfl

/-- Where a register is asked for, a number is taken for the name of one. -/
theorem readRegister_of_literalText (h : LiteralText literal n)
    (hrest : Stops Char.isAlphanum rest) : readRegister (literal ++ rest) =
      .error ⟨literal ++ rest, if literal.head? = some '-' then .expected SlotKind.register.describe
        else .refused (.registerName (String.ofList literal))⟩ := by
  cases h with
  | nonneg hnumeral =>
    have hname := takeWhile_append_of_stops hnumeral.isAlphanum hrest
    obtain ⟨c, later, rfl, hc⟩ := hnumeral.head
    have hminus : c ≠ '-' := by
      rintro rfl
      exact absurd hc (by decide)
    have hrefused := ofName_of_isDigit (String.toList_ofList (l := c :: later)) hc
    rw [readRegister]
    split
    · next hnil => cases hname.symm.trans hnil
    · rw [hname, hrefused]
      simp [Fault.ofRefusal, Except.map, hminus]
  | neg => rfl

/-! ### Single operands -/

namespace Place

/-- What is read last where the integer should stand. Where no displacement is found in an address,
the operands are read in the order of the slots, and there it is the turn of a register. -/
def kind : Place → SlotKind
  | .immediate => .immediate
  | .offset => .offset
  | .displacement => .register

/-- Why a literal is not accepted at its place if it is out of range. -/
def reason (literal : List Char) : Place → FaultReason
  | .immediate => .integerRange
  | .offset => .expected SlotKind.offset.describe
  | .displacement =>
    if literal.head? = some '-' then .expected SlotKind.register.describe
    else .refused (.registerName (String.ofList literal))

/-- What is reported of a literal that is out of range, if `after` follows it in its statement. -/
def problem (literal after : List Char) : Place → ParseProblem
  | .immediate => .integerRange
  | .offset => .expected SlotKind.offset.describe (describeFound (literal ++ after))
  | .displacement =>
    if literal.head? = some '-' then
      .expected SlotKind.register.describe (describeFound (literal ++ after))
    else .refused (.registerName (String.ofList literal))

/-- Only of immediates is it reported that they are out of range. -/
theorem problem_eq_integerRange {place : Place} :
    place.problem literal after = .integerRange ↔ place = .immediate := by
  cases place with
  | immediate => simp [problem]
  | offset => simp [problem]
  | displacement =>
    rw [problem]
    split <;> simp

end Place

theorem readOperand_outOfRange (h : LiteralText literal n) (hn : ¬ Numeral.FitsInt64 n)
    (hrest : Stops Char.isAlphanum rest) (place : Place) :
    readOperand place.kind (literal ++ rest) = .error ⟨literal ++ rest, place.reason literal⟩ := by
  cases place with
  | immediate =>
    rw [Place.kind, readOperand, readImmediate_outOfRange h hn hrest]
    rfl
  | offset =>
    rw [Place.kind, readOperand, readOffset_outOfRange h hn hrest]
    rfl
  | displacement =>
    rw [Place.kind, readOperand, readRegister_of_literalText h hrest]
    rfl

/-! ### Operands -/

/-- If the operand of a slot is not read, no operands are. -/
theorem readOperands_of_upTo {slots : List Slot} {last : Slot} (h : UpTo slots before last)
    (hrest : StartsOperand rest) {fault : Fault}
    (hread : readOperand last.kind rest = .error fault) :
    readOperands slots (before ++ rest) = .error fault := by
  induction h with
  | @first slot slots =>
    cases slots with
    | nil =>
      rw [List.nil_append, readOperands, hread]
      rfl
    | cons next slots =>
      rw [List.nil_append, readOperands.eq_3 _ _ _ (by simp), hread]
      rfl
  | @more slot next last slots text comma later operand hoperand hcomma hlater ih =>
    have hspace := (hlater.startsOperand hrest).stops_isInlineSpace
    have hoperandRead := readOperand_of_operandText hoperand (hcomma.stops (later ++ rest))
    have hskip := readComma_eq_ok.2 (comma?_eq_some.2 ⟨comma, hcomma, rfl, hspace⟩)
    rw [List.append_assoc, List.append_assoc, readOperands.eq_3 _ _ _ (by simp), hoperandRead]
    simp only [bind, Except.bind, hskip, ih hread]

/-- In front of a constant behind two registers stand these two. -/
theorem UpTo.exists_registers {first second last : Slot} {slots : List Slot}
    (h : UpTo (first :: second :: slots) before last) (hfirst : first.kind = .register)
    (hsecond : second.kind = .register) (hlast : last.kind ≠ .register) :
    ∃ name r comma c later, Register.Named name r ∧ CommaText comma ∧ c.isAlpha ∧
      before = name.toList ++ (comma ++ c :: later) := by
  cases h with
  | first => exact absurd hfirst hlast
  | more hoperand hcomma hlater =>
    rw [hfirst] at hoperand
    cases hoperand with
    | register hname =>
      cases hlater with
      | first => exact absurd hsecond hlast
      | @more _ _ _ _ _ nextComma behind _ hnext =>
        rw [hsecond] at hnext
        cases hnext with
        | register hnextName =>
          obtain ⟨c, later, hcons, hc⟩ := hnextName.head_isAlpha
          refine ⟨_, _, _, c, later ++ (nextComma ++ behind), hname, hcomma, hc, ?_⟩
          rw [hcons, List.cons_append]

variable {opcode : Opcode} {place : Place}

/-- In the order of the slots, the operand at the place of the integer is the one that is read last
there. -/
theorem OperandsAround.exists_upTo (h : OperandsAround opcode place before after) :
    ∃ last, UpTo opcode.shape.slots before last ∧ last.kind = place.kind := by
  cases h with
  | immediate h => exact ⟨_, h, rfl⟩
  | offset h => exact ⟨_, h, rfl⟩
  | displacement hmemory hvalue hcomma =>
    obtain ⟨first, second, slots, hslots, hfirst, hsecond⟩ := exists_slots_of_isMemory hmemory
    rw [hslots]
    have hoperand := OperandText.register hvalue
    rw [← hfirst] at hoperand
    have hlast : UpTo (second :: slots) [] second := .first
    refine ⟨second, ?_, hsecond⟩
    simpa using UpTo.more hoperand hcomma hlast

theorem OperandsAround.startsOperand (h : OperandsAround opcode place before after)
    {rest : List Char} (hrest : StartsOperand rest) : StartsOperand (before ++ rest) := by
  obtain ⟨last, hupTo, -⟩ := h.exists_upTo
  exact hupTo.startsOperand hrest

/-- With a literal that is out of range, no operands are taken for an address. -/
theorem OperandsAround.readMemory_outOfRange (h : OperandsAround opcode place before after)
    (hmemory : opcode.isMemory) (hliteral : LiteralText literal n) (hn : ¬ Numeral.FitsInt64 n)
    (valueSlot : Slot) : readMemory valueSlot (before ++ (literal ++ after)) = .ok none := by
  have hplain : ∀ {last}, UpTo opcode.shape.slots before last → last.kind ≠ .register →
      readMemory valueSlot (before ++ (literal ++ after)) = .ok none := by
    intro last hupTo hlast
    obtain ⟨first, second, slots, hslots, hfirst, hsecond⟩ := exists_slots_of_isMemory hmemory
    rw [hslots] at hupTo
    obtain ⟨name, r, comma, c, later, hname, hcomma, hc, rfl⟩ :=
      hupTo.exists_registers hfirst hsecond hlast
    rw [List.append_assoc, List.append_assoc, List.cons_append]
    have hstart : isSymbolStart c := by simp [isSymbolStart, hc]
    have hspace : StartsOperand (c :: (later ++ (literal ++ after))) :=
      ⟨c, _, rfl, .inl (isSymbolChar_of_isSymbolStart hstart)⟩
    refine readMemory_of_not_address valueSlot hname hcomma hspace.stops_isInlineSpace
      (readInt64_of_isSymbolStart hstart _) ?_
    rintro ⟨⟩
    exact absurd hc (by decide)
  have hstops := stops_isAlphanum h.stops
  cases h with
  | immediate hupTo => exact hplain hupTo (by decide)
  | offset hupTo => exact hplain hupTo (by decide)
  | displacement _ hvalue hcomma =>
    rw [List.append_assoc]
    refine readMemory_of_not_address valueSlot hvalue hcomma
      (hliteral.startsOperand.append _).stops_isInlineSpace
      (readInt64_outOfRange hliteral hn hstops) ?_
    obtain ⟨c, later, rfl, hc⟩ := hliteral.head
    rintro ⟨⟩
    exact absurd hc (by decide)

/-- With a literal that is out of range, the operands are not read, and the fault is where the
literal stands. -/
theorem readInstructionOperands_outOfRange (h : OperandsAround opcode place before after)
    (hliteral : LiteralText literal n) (hn : ¬ Numeral.FitsInt64 n) :
    readInstructionOperands opcode (before ++ (literal ++ after)) =
      .error ⟨literal ++ after, place.reason literal⟩ := by
  obtain ⟨last, hupTo, hkind⟩ := h.exists_upTo
  have hread := readOperand_outOfRange hliteral hn (stops_isAlphanum h.stops) place
  rw [← hkind] at hread
  have hplain := readOperands_of_upTo hupTo (hliteral.startsOperand.append after) hread
  rw [readInstructionOperands]
  split
  · next hmemory =>
    rw [h.readMemory_outOfRange hmemory hliteral hn]
    exact hplain
  · exact hplain

/-! ### Statements and lines -/

variable {κ : Type} {registry : Registry κ}

/-- A statement ends with its integer or with a parenthesis. -/
theorem OperandsAround.endsSolid (h : OperandsAround opcode place before after)
    (hliteral : LiteralText literal n) : EndsSolid (literal ++ after) := by
  have hsolid : EndsSolid literal := by
    obtain ⟨c, later, hcons, -⟩ := hliteral.head
    exact endsSolid_of_isOperandChar (by simp [hcons]) fun c hc =>
      isOperandChar_of_or (hliteral.chars c hc)
  cases h with
  | immediate => simpa using hsolid
  | offset => simpa using hsolid
  | displacement =>
    exact (endsSolid_of_stops_reverse (by simp) (by simp; decide)).append literal

/-- With a literal that is out of range, a statement is not read. -/
theorem readCode_outOfRange {mnemonic : String} {space operands : List Char}
    (hmnemonic : IsMnemonic registry mnemonic opcode) (hspace : Inline space) (hne : space ≠ [])
    (h : OperandsAround opcode place operands after) (hliteral : LiteralText literal n)
    (hn : ¬ Numeral.FitsInt64 n) :
    readCode registry (mnemonic.toList ++ (space ++ (operands ++ (literal ++ after)))) =
      .error ⟨literal ++ after, place.reason literal⟩ := by
  have hstart := h.startsOperand (hliteral.startsOperand.append after)
  have hskip := skipInline_append hspace hstart.stops_isInlineSpace
  have hstops : Stops isSymbolChar (space ++ (operands ++ (literal ++ after))) := by
    obtain ⟨c, later, rfl⟩ := List.exists_cons_of_ne_nil hne
    exact stops_cons.2 (not_isSymbolChar_of_isInlineSpace (hspace c List.mem_cons_self))
  have hcolon : (skipInline (space ++ (operands ++ (literal ++ after)))).head? ≠ some ':' := by
    obtain ⟨c, later, hcons, hc⟩ := hstart
    rw [hskip, hcons]
    rintro ⟨⟩
    exact absurd hc (by decide)
  rw [readCode_mnemonic hmnemonic hstops hcolon, hskip,
    readInstructionOperands_outOfRange h hliteral hn]
  rfl

/-- The report of a literal that is out of range. It is placed where the literal starts. -/
theorem report_outOfRange (start : Position) (head literal after : List Char) (place : Place) :
    Fault.report start (head ++ (literal ++ after)) ⟨literal ++ after, place.reason literal⟩ =
      ⟨start.advance head, place.problem literal after⟩ := by
  have hposition : (head ++ (literal ++ after)).take
      ((head ++ (literal ++ after)).length - (literal ++ after).length) = head := by
    rw [List.length_append, Nat.add_sub_cancel, List.take_left]
  unfold Fault.report
  rw [hposition]
  cases place with
  | immediate => rfl
  | offset => rfl
  | displacement =>
    by_cases hminus : literal.head? = some '-' <;> simp [Place.reason, Place.problem, hminus]

/-- A statement is what a line is read for, whatever white space stands in front of it, and whatever
white space and comment behind it. -/
theorem readLine_append {lead code : List Char} (hlead : ∀ c ∈ lead, isSpace c)
    (hplain : ∀ c ∈ code, c ≠ '#' ∧ c ≠ '"') (hstart : Stops isSpace code) (hend : EndsSolid code)
    (htail : codeOf tail = []) {fault : Fault} (h : readCode registry code = .error fault)
    (start : Position) : readLine registry start (lead ++ (code ++ tail)) =
      .error (fault.report (start.advance lead) code) := by
  have hbare : uncommented (lead ++ (code ++ tail)) = lead ++ (code ++ uncommented tail) := by
    rw [uncommented_append_of_isSpace hlead, uncommented_append hplain]
  have hstops : Stops isSpace (code ++ uncommented tail) :=
    (stops_append_of_ne_nil hend.ne_nil).2 hstart
  have htrim : trim (lead ++ (code ++ uncommented tail)) = code := by
    rw [trim, trimStart, dropWhile_append_of_stops hlead hstops, trimEnd_append hend.stops_reverse,
      trim_eq_nil_iff.1 htail, List.append_nil]
  rw [readLine, hbare, htrim, takeWhile_append_of_stops hlead hstops]
  split
  · exact absurd rfl hend.ne_nil
  · rw [h]

/-- With a literal that is out of range, a line is not read. -/
theorem LineAround.readLine_outOfRange (h : LineAround registry opcode place before after tail)
    (hliteral : LiteralText literal n) (hn : ¬ Numeral.FitsInt64 n) (start : Position) :
    readLine registry start (before ++ (literal ++ (after ++ tail))) =
      .error ⟨start.advance before, place.problem literal after⟩ := by
  obtain @⟨lead, space, operands, _, _, mnemonic, hlead, hmnemonic, hspace, hne, hoperands,
    htail⟩ := h
  have hread := readCode_outOfRange hmnemonic hspace hne hoperands hliteral hn
  have hchars : ∀ c ∈ operands ++ (literal ++ after),
      IsOperandChar c ∨ c = ',' ∨ isInlineSpace c := by
    intro c hc
    have haround := hoperands.chars c
    simp only [List.mem_append] at hc haround
    rcases hc with hc | hc | hc
    · exact haround (.inl hc)
    · exact .inl (isOperandChar_of_or (hliteral.chars c hc))
    · exact haround (.inr hc)
  have hplain := ne_of_mem_statement hmnemonic.isSymbol hspace hchars
  have hend := (hoperands.endsSolid hliteral).append (mnemonic.toList ++ (space ++ operands))
  have hline := readLine_append hlead (fun c hc => ⟨(hplain c hc).1, (hplain c hc).2.1⟩)
    (stops_isSpace_of_isSymbol hmnemonic.isSymbol _) (by simpa using hend) htail hread start
  have hreport := report_outOfRange (start.advance lead)
    (mnemonic.toList ++ (space ++ operands)) literal after place
  simp only [List.append_assoc, Position.advance_append] at hline hreport ⊢
  rw [hline, hreport]

/-! ### Texts -/

/-- Of all problems, only that an integer is out of range is worded like this. -/
theorem message_outOfRange_iff {e : ParseError} :
    e.message = "integer literal out of range" ∧ e.cause? = none ↔ e.problem = .integerRange := by
  obtain ⟨position, problem⟩ := e
  cases problem with
  | integerRange => simp [ParseError.message, ParseError.cause?]
  | refused => simp [ParseError.cause?]
  | expected what found =>
    have hexpected : (toString "expected ").toList.head? = some 'e' := rfl
    have hmessage :
        (ParseError.message ⟨position, .expected what found⟩).toList.head? = some 'e' := by
      simp [ParseError.message, hexpected]
    simp only [reduceCtorEq, iff_false, not_and]
    intro h
    rw [h] at hmessage
    exact absurd hmessage (by decide)

/-- In a text that is read, the integer of an instruction stands at one of the places on some line;
only a displacement may be left out. With a literal that is out of range instead, the text is not
read. The report is placed at the first character of the literal. It says that the integer is out of
range if the place is that of an immediate, and something else at the other places. -/
theorem parse_outOfRange {text : String} {p : Program} (h : parse registry text = .ok p) :
    (∀ i, .instruction i ∈ p → ∀ f ∈ i.operands.toList, ∀ m, f.2.toAttribute = .integer m →
      ∃ front place before number after tail,
        HasLine text front (before ++ (number ++ (after ++ tail))) ∧
        LineAround registry i.opcode place before after tail ∧ place.Writes number m.value) ∧
    ∀ opcode place front before number after tail,
      HasLine text front (before ++ (number ++ (after ++ tail))) →
      LineAround registry opcode place before after tail →
      ∀ literal n text', LiteralText literal n → ¬ Numeral.FitsInt64 n →
        HasLine text' front (before ++ (literal ++ (after ++ tail))) →
        ∃ e, parse registry text' = .error e ∧
          e.position = Position.start.advance (front.flatMap Line.text ++ before) ∧
          e.problem = place.problem literal after ∧
          (e.message = "integer literal out of range" ∧ e.cause? = none ↔ place = .immediate) := by
  constructor
  · intro i hi f hf m hm
    obtain ⟨front, content, hline, hread⟩ := exists_hasLine h hi
    obtain ⟨place, before, number, after, tail, rfl, haround, hnumber⟩ :=
      exists_lineAround hread hf hm
    exact ⟨front, place, before, number, after, tail, hline, haround, hnumber⟩
  · intro opcode place front before number after tail hline haround literal n text' hliteral hn
      hline'
    have hread := haround.readLine_outOfRange hliteral hn
      (Position.start.advance (front.flatMap Line.text))
    refine ⟨_, parse_eq_error hline' (hline.readLine_front h) hread, ?_, rfl, ?_⟩
    · rw [Position.advance_append]
    · rw [message_outOfRange_iff]
      exact Place.problem_eq_integerRange

/-- The least number that is too large, in hexadecimal digits. -/
theorem parse_outOfRange_addi :
    parse .riscv "addi a0, a0, 5" =
        .ok [.instruction ⟨.addi, .rdRs1Imm ⟨10⟩ ⟨10⟩ (.full 5), rfl⟩] ∧
      ∃ e, parse .riscv "addi a0, a0, 0x8000000000000000" = .error e ∧
        e.message = "integer literal out of range" ∧ e.cause? = none ∧
        e.position = ⟨13, 1, 14⟩ := by
  have hname : Register.Named "a0" ⟨10⟩ := .abi (by decide)
  have hfive : IntegerText ['5'] 5 := .nonneg (.decimal (by simp) (by decide)) (by decide)
  have hplain : PlainText [.rd, .rs1, .immediate]
      ("a0".toList ++ ([',', ' '] ++ ("a0".toList ++ ([',', ' '] ++ ['5']))))
      [(.rd, .register ⟨10⟩), (.rs1, .register ⟨10⟩), (.immediate, .immediate (.full 5))] :=
    .more (.register hname) commaText_space
      (.more (.register hname) commaText_space (.last (.immediate hfive)))
  have hoperands : OperandsText .plain ⟨.addi, .rdRs1Imm ⟨10⟩ ⟨10⟩ (.full 5), rfl⟩ _ :=
    .plain hplain
  have hread := hoperands.parse inline_space (by simp)
  have htext : "addi a0, a0, 5" = String.ofList (Opcode.addi.mnemonic.toList ++ ([' '] ++
      ("a0".toList ++ ([',', ' '] ++ ("a0".toList ++ ([',', ' '] ++ ['5'])))))) := by decide
  have hparse : parse .riscv "addi a0, a0, 5" =
      .ok [.instruction ⟨.addi, .rdRs1Imm ⟨10⟩ ⟨10⟩ (.full 5), rfl⟩] :=
    (congrArg (parse .riscv) htext).trans hread
  have hupTo : UpTo [.rd, .rs1, .immediate]
      ("a0".toList ++ ([',', ' '] ++ ("a0".toList ++ ([',', ' '] ++ [])))) .immediate :=
    .more (.register hname) commaText_space (.more (.register hname) commaText_space .first)
  have haround : LineAround .riscv .addi .immediate "addi a0, a0, ".toList [] [] :=
    lineAround_riscv (.immediate hupTo)
  have hliteral : LiteralText "0x8000000000000000".toList 9223372036854775808 :=
    .nonneg (.hexadecimal (.inl rfl) (List.cons_ne_nil '8' "000000000000000".toList) (by decide))
  have hline : HasLine "addi a0, a0, 5" [] ("addi a0, a0, ".toList ++ (['5'] ++ ([] ++ []))) :=
    hasLine_nil (by rfl) (by simp) (by decide)
  have hline' : HasLine "addi a0, a0, 0x8000000000000000" []
      ("addi a0, a0, ".toList ++ ("0x8000000000000000".toList ++ ([] ++ []))) :=
    hasLine_nil (by rfl) (by simp) (by decide)
  obtain ⟨e, he, hposition, -, hmessage⟩ := (parse_outOfRange hparse).2 _ _ _ _ _ _ _ hline haround
    _ _ _ hliteral (by decide) hline'
  exact ⟨hparse, e, he, (hmessage.2 rfl).1, (hmessage.2 rfl).2, hposition.trans (by decide)⟩

/-- An offset that is out of range is reported to be neither an integer nor a label. -/
theorem not_outOfRange_jal :
    parse .riscv "jal ra, 5" =
        .ok [.instruction ⟨.jal, .rdOff ⟨1⟩ (.integer (.full 5)), rfl⟩] ∧
      LiteralText "9223372036854775808".toList 9223372036854775808 ∧
      ¬ Numeral.FitsInt64 9223372036854775808 ∧
      ∃ e, parse .riscv "jal ra, 9223372036854775808" = .error e ∧
        e.message ≠ "integer literal out of range" ∧
        e.message = "expected an integer or a label, found '9223372036854775808'" := by
  have hname : Register.Named "ra" ⟨1⟩ := .abi (by decide)
  have hfive : IntegerText ['5'] 5 := .nonneg (.decimal (by simp) (by decide)) (by decide)
  have hplain : PlainText [.rd, .offset] ("ra".toList ++ ([',', ' '] ++ ['5']))
      [(.rd, .register ⟨1⟩), (.offset, .offset (.integer (.full 5)))] :=
    .more (.register hname) commaText_space (.last (.number hfive))
  have hoperands : OperandsText .plain ⟨.jal, .rdOff ⟨1⟩ (.integer (.full 5)), rfl⟩ _ :=
    .plain hplain
  have hread := hoperands.parse inline_space (by simp)
  have htext : "jal ra, 5" = String.ofList (Opcode.jal.mnemonic.toList ++ ([' '] ++
      ("ra".toList ++ ([',', ' '] ++ ['5'])))) := by decide
  have hupTo : UpTo [.rd, .offset] ("ra".toList ++ ([',', ' '] ++ [])) .offset :=
    .more (.register hname) commaText_space .first
  have haround : LineAround .riscv .jal .offset "jal ra, ".toList [] [] :=
    lineAround_riscv (.offset hupTo)
  have hliteral : LiteralText "9223372036854775808".toList 9223372036854775808 :=
    .nonneg (.decimal (by simp) (by decide))
  have hline : HasLine "jal ra, 9223372036854775808" []
      ("jal ra, ".toList ++ ("9223372036854775808".toList ++ ([] ++ []))) :=
    hasLine_nil (by rfl) (by simp) (by decide)
  have hfault := haround.readLine_outOfRange hliteral (by decide) .start
  exact ⟨(congrArg (parse .riscv) htext).trans hread, hliteral, by decide, _,
    parse_eq_error hline (by simp) hfault, by decide, by decide⟩

end RiscvDialect.Assembly.Grammar

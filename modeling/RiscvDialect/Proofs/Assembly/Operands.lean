import RiscvDialect.Assembly.Parser
import RiscvDialect.Assembly.Printer
import RiscvDialect.Proofs.Register
import RiscvDialect.Proofs.Width

/-!
# Operands in assembly are read back

Each operand is written as a name or a number. It is read back, in full width, wherever it is
followed by a character that could belong to neither. Loads and stores write two of their operands
as an address, in another order than that of the slots; they are read back all the same, but in the
order in which they are written.

## Main statements

* `readOperand_append`, `readOperands_append`: operands with commas between them
* `readMemory_append`: a register and an address
* `readInstructionOperands_append`: the operands of an instruction, in the form that it has
-/

namespace RiscvDialect.Assembly

open Text

variable {style : RegisterStyle} {rest : List Char}

/-! ### Single operands -/

theorem isSymbolChar_of_isAlphanum {c : Char} (h : c.isAlphanum) : isSymbolChar c := by
  simp only [Char.isAlphanum, Bool.or_eq_true] at h
  rcases h with h | h <;> simp [isSymbolChar, isSymbolStart, h]

/-- What ends a symbol ends the name of a register and a number as well. -/
theorem stops_isAlphanum (h : Stops isSymbolChar rest) : Stops Char.isAlphanum rest :=
  h.mono fun _ => isSymbolChar_of_isAlphanum

theorem readRegister_append {name : String} {r : Register} (hname : Register.Named name r)
    (hrest : Stops Char.isAlphanum rest) :
    readRegister (name.toList ++ rest) = .ok (r, rest) := by
  obtain ⟨c, later, hcons⟩ := hname.exists_eq_cons
  rw [readRegister]
  rw [takeWhile_append_of_stops hname.isAlphanum hrest,
    dropWhile_append_of_stops hname.isAlphanum hrest]
  split
  · next hnil => simp [hcons] at hnil
  · rw [String.ofList_toList, Register.ofName_eq_ok.2 hname]
    rfl

theorem readImmediate_append (i : SizedInt) (hrest : Stops Char.isAlphanum rest) :
    readImmediate ((toString i.value.toInt).toList ++ rest) = .ok (i.widen, rest) := by
  simp only [readImmediate, Numeral.readInteger_toString hrest, Numeral.int64?_toInt,
    SizedInt.widen]

theorem readInt64_append (value : Int64) (hrest : Stops Char.isAlphanum rest) :
    readInt64 ((toString value.toInt).toList ++ rest) = some (value, rest) := by
  simp only [readInt64, Numeral.readInteger_toString hrest, Numeral.int64?_toInt, Option.map_some]

theorem readLabel_append (l : Label) (hrest : Stops isSymbolChar rest) :
    readLabel (l.name.toList ++ rest) = some (l, rest) := by
  have hread := readSymbol_append l.isSymbol_name hrest
  rw [readLabel]
  split
  · next heq =>
    rw [hread] at heq
    cases heq
    simp
  · next heq => simp [hread] at heq

/-- No symbol starts as an integer does. -/
theorem readInt64_of_isSymbolStart {c : Char} (hc : isSymbolStart c) (text : List Char) :
    readInt64 (c :: text) = none := by
  have hdigit : c.isDigit = false := not_isDigit_of_isSymbolStart hc
  have hminus : c ≠ '-' := by
    rintro rfl
    exact absurd hc (by decide)
  rw [readInt64, Numeral.readInteger_eq_none hdigit hminus]

theorem readInt64_label (l : Label) : readInt64 (l.name.toList ++ rest) = none := by
  obtain ⟨c, later, hname, hstart, -⟩ := exists_eq_cons_of_isSymbol l.isSymbol_name
  rw [hname, List.cons_append, readInt64_of_isSymbolStart hstart]

theorem readOffset_append (o : Offset) (hrest : Stops isSymbolChar rest) :
    readOffset (o.assembly.toList ++ rest) = .ok (o.widen, rest) := by
  cases o with
  | integer i =>
    rw [Offset.assembly, readOffset, readInt64_append _ (stops_isAlphanum hrest)]
    rfl
  | label l =>
    rw [Offset.assembly, readOffset, readInt64_label, readLabel_append l hrest]
    rfl

/-- An operand is read back by the slots of its kind. -/
theorem readOperand_append (style : RegisterStyle) {kind : SlotKind} {operand : Operand}
    (hkind : operand.kind = kind) (hrest : Stops isSymbolChar rest) :
    readOperand kind ((operand.assembly style).toList ++ rest) = .ok (operand.widen, rest) := by
  subst hkind
  cases operand with
  | register r =>
    have hread := readRegister_append (style.named_write r) (stops_isAlphanum hrest)
    rw [Operand.assembly, Operand.kind, readOperand, hread]
    rfl
  | immediate i =>
    have hread := readImmediate_append i (stops_isAlphanum hrest)
    rw [Operand.assembly, Operand.kind, readOperand, hread]
    rfl
  | offset o =>
    rw [Operand.assembly, Operand.kind, readOperand, readOffset_append o hrest]
    rfl

/-! ### Where an operand starts -/

/-- The text starts with a character that an operand may start with. -/
def StartsOperand (text : List Char) : Prop :=
  ∃ c later, text = c :: later ∧ (isSymbolChar c ∨ c = '-')

theorem StartsOperand.append {text : List Char} (h : StartsOperand text) (rest : List Char) :
    StartsOperand (text ++ rest) := by
  obtain ⟨c, later, rfl, hc⟩ := h
  exact ⟨c, later ++ rest, rfl, hc⟩

theorem StartsOperand.stops_isInlineSpace {text : List Char} (h : StartsOperand text) :
    Stops isInlineSpace text := by
  obtain ⟨c, later, rfl, hc⟩ := h
  rw [stops_cons, Bool.eq_false_iff]
  intro hspace
  rcases isInlineSpace_iff.1 hspace with rfl | rfl <;> exact absurd hc (by decide)

theorem startsOperand_of_isSymbol {name : List Char} (h : isSymbol name) : StartsOperand name := by
  obtain ⟨c, later, rfl, hc, -⟩ := exists_eq_cons_of_isSymbol h
  exact ⟨c, later, rfl, .inl (isSymbolChar_of_isSymbolStart hc)⟩

theorem startsOperand_toString (i : Int) : StartsOperand (toString i).toList := by
  obtain ⟨c, later, hcons, hc⟩ := Numeral.exists_toString_eq_cons i
  exact ⟨c, later, hcons, hc.imp_left fun h => by simp [isSymbolChar, h]⟩

theorem startsOperand_of_named {name : String} {r : Register} (h : Register.Named name r) :
    StartsOperand name.toList := by
  obtain ⟨c, later, hcons⟩ := h.exists_eq_cons
  refine ⟨c, later, hcons, .inl (isSymbolChar_of_isAlphanum (h.isAlphanum c ?_))⟩
  rw [hcons]
  exact List.mem_cons_self

theorem startsOperand_assembly (style : RegisterStyle) (operand : Operand) :
    StartsOperand (operand.assembly style).toList := by
  rcases operand with r | i | (i | l)
  · exact startsOperand_of_named (style.named_write r)
  · exact startsOperand_toString _
  · exact startsOperand_toString _
  · exact startsOperand_of_isSymbol l.isSymbol_name

/-- Texts with commas between them start as the first of them does. -/
theorem startsOperand_intercalate {text : String} (h : StartsOperand text.toList)
    (later : List String) : StartsOperand (", ".intercalate (text :: later)).toList := by
  cases later with
  | nil => simpa using h
  | cons next later =>
    rw [String.intercalate_cons_cons, String.append_assoc, String.toList_append]
    exact h.append _

/-! ### Operands with commas between them -/

theorem skipInline_of_stops {text : List Char} (h : Stops isInlineSpace text) :
    skipInline text = text :=
  dropWhile_of_stops h

theorem skipInline_space {text : List Char} (h : Stops isInlineSpace text) :
    skipInline (' ' :: text) = text :=
  skipInline_of_stops h

theorem comma?_append {text : List Char} (h : Stops isInlineSpace text) :
    comma? (", ".toList ++ text) = some text := by
  have hcomma : skipInline (", ".toList ++ text) = ',' :: ' ' :: text :=
    skipInline_of_stops (by simp; decide)
  rw [comma?, hcomma]
  exact congrArg some (skipInline_space h)

theorem readComma_append {text : List Char} (h : Stops isInlineSpace text) :
    readComma (", ".toList ++ text) = .ok text := by
  rw [readComma, comma?_append h]

/-- A comma ends an operand. -/
theorem stops_comma (text : List Char) : Stops isSymbolChar (", ".toList ++ text) := by
  simp
  decide

/-- Operands are read back by their slots. -/
theorem readOperands_append (style : RegisterStyle) {filled : List (Slot × Operand)}
    (hkind : ∀ f ∈ filled, f.2.kind = f.1.kind) (hrest : Stops isSymbolChar rest) :
    readOperands (filled.map Prod.fst)
        ((", ".intercalate (filled.map fun f => f.2.assembly style)).toList ++ rest) =
      .ok (filled.map fun f => (f.1, f.2.widen), rest) := by
  induction filled with
  | nil => rfl
  | cons first later ih =>
    have hfirst := hkind first List.mem_cons_self
    cases later with
    | nil =>
      simp only [List.map_cons, List.map_nil, String.intercalate_singleton, readOperands,
        readOperand_append style hfirst hrest, Except.map]
    | cons next later =>
      have hstart := startsOperand_intercalate (startsOperand_assembly style next.2)
        (later.map fun f => f.2.assembly style)
      have hcomma := readComma_append (hstart.append rest).stops_isInlineSpace
      have hread := fun text => readOperand_append style hfirst (stops_comma text)
      have hlater := ih fun f hf => hkind f (List.mem_cons_of_mem _ hf)
      rw [List.map_cons, List.map_cons] at hlater
      rw [List.map_cons, List.map_cons, List.map_cons, List.map_cons,
        String.intercalate_cons_cons, String.toList_append, String.toList_append,
        List.append_assoc, List.append_assoc, readOperands.eq_3 _ _ _ (by simp), hread]
      simp only [bind, Except.bind, hcomma, hlater, pure, Except.pure, List.map_cons]

/-! ### Addresses -/

theorem startsName_of_named {name : String} {r : Register} (h : Register.Named name r)
    (rest : List Char) : startsName (name.toList ++ rest) := by
  obtain ⟨c, later, hcons⟩ := h.exists_eq_cons
  have hc := h.isAlphanum c (by rw [hcons]; exact List.mem_cons_self)
  simp [startsName, hcons, hc]

/-- A register and an address are read back as the operands of three slots. -/
theorem readMemory_append (style : RegisterStyle) (slot : Slot) (value base : Register)
    (displacement : SizedInt) (rest : List Char) :
    readMemory slot ((style.write value).toList ++ (", ".toList ++
        ((Instruction.addressText style displacement base).toList ++ rest))) =
      .ok (some ([(slot, .register value), (.rs1, .register base),
        (.immediate, .immediate displacement.widen)], rest)) := by
  have haddress : (Instruction.addressText style displacement base).toList ++ rest =
      (toString displacement.value.toInt).toList ++
        '(' :: ((style.write base).toList ++ ')' :: rest) := by
    simp [Instruction.addressText]
  have hstart : Stops isInlineSpace ((Instruction.addressText style displacement base).toList
      ++ rest) := by
    rw [haddress]
    exact ((startsOperand_toString _).append _).stops_isInlineSpace
  have hbase : Stops isInlineSpace ((style.write base).toList ++ ')' :: rest) :=
    ((startsOperand_of_named (style.named_write base)).append _).stops_isInlineSpace
  have hvalue := fun text =>
    readRegister_append (style.named_write value) (stops_isAlphanum (stops_comma text))
  have hclose : readRegister ((style.write base).toList ++ ')' :: rest) = .ok (base, ')' :: rest) :=
    readRegister_append (style.named_write base) (by simp)
  have hinteger : readInt64 ((toString displacement.value.toInt).toList ++
      '(' :: ((style.write base).toList ++ ')' :: rest)) =
        some (displacement.value, '(' :: ((style.write base).toList ++ ')' :: rest)) :=
    readInt64_append displacement.value (by simp)
  have hopen : skipInline ('(' :: ((style.write base).toList ++ ')' :: rest)) =
      '(' :: ((style.write base).toList ++ ')' :: rest) :=
    skipInline_of_stops (by simp; decide)
  have hend : skipInline (')' :: rest) = ')' :: rest := skipInline_of_stops (by simp; decide)
  rw [readMemory, if_pos (startsName_of_named (style.named_write value) _), hvalue]
  simp only [bind, Except.bind, comma?_append hstart]
  simp only [haddress, hinteger, Option.getD_some, hopen, skipInline_of_stops hbase,
    startsName_of_named (style.named_write base), if_true, hclose, hend, pure, Except.pure,
    SizedInt.widen]

/-- Only two shapes occur among loads and stores. -/
theorem shape_of_isMemory {opcode : Opcode} (h : opcode.isMemory) :
    opcode.shape = .rdRs1Imm ∨ opcode.shape = .rs1Rs2Imm := by
  revert h
  cases opcode <;> decide

/-- One of them occurs nowhere else. -/
theorem isMemory_of_shape {opcode : Opcode} (h : opcode.shape = .rs1Rs2Imm) : opcode.isMemory := by
  revert h
  cases opcode <;> decide

/-- Loads and stores write a register and an address. -/
theorem operandTexts_of_isMemory (style : RegisterStyle) {i : Instruction} (h : i.opcode.isMemory) :
    ∃ value base displacement,
      i.operandTexts style = [style.write value, Instruction.addressText style displacement base] ∧
      List.Perm [(movedSlot i.opcode.shape, .register value), (.rs1, .register base),
        (.immediate, .immediate displacement)] i.operands.toList := by
  obtain ⟨opcode, operands, hshape⟩ := i
  have hs := shape_of_isMemory h
  rw [← hshape] at hs
  cases operands with
  | rdRs1Imm rd rs1 immediate =>
    refine ⟨rd, rs1, immediate, ?_, ?_⟩
    · rw [Instruction.operandTexts]
      simp [h]
    · rw [← hshape]
      exact .refl _
  | rs1Rs2Imm rs1 rs2 immediate =>
    refine ⟨rs2, rs1, immediate, rfl, ?_⟩
    rw [← hshape]
    exact .swap _ _ _
  | _ => simp [OperandsWith.shape] at hs

/-- The others write their operands in the order of the slots. -/
theorem operandTexts_of_not_isMemory {i : Instruction} (h : i.opcode.isMemory = false) :
    i.operandTexts style = i.operands.toList.map fun f => f.2.assembly style := by
  obtain ⟨opcode, operands, hshape⟩ := i
  cases operands with
  | rdRs1Imm => simp_all [Instruction.operandTexts, Operands.toList, Operand.assembly]
  | rs1Rs2Imm => simp [isMemory_of_shape hshape.symm] at h
  | _ => rfl

/-! ### Instructions -/

/-- The operands of an instruction are read back, maybe in another order. -/
theorem readInstructionOperands_append (style : RegisterStyle) (i : Instruction)
    (hrest : Stops isSymbolChar rest) :
    ∃ filled, readInstructionOperands i.opcode
        ((", ".intercalate (i.operandTexts style)).toList ++ rest) = .ok (filled, rest) ∧
      filled.Perm i.operands.widen.toList := by
  rw [Operands.toList_widen]
  by_cases hmemory : i.opcode.isMemory
  · obtain ⟨value, base, displacement, htexts, hperm⟩ := operandTexts_of_isMemory style hmemory
    have hread := readMemory_append style (movedSlot i.opcode.shape) value base
      displacement rest
    refine ⟨_, ?_, hperm.map _⟩
    rw [htexts, String.intercalate_cons_cons, String.intercalate_singleton, String.append_assoc,
      String.toList_append, String.toList_append, List.append_assoc, List.append_assoc,
      readInstructionOperands, if_pos hmemory, hread]
    rfl
  · refine ⟨_, ?_, .refl _⟩
    have hread := readOperands_append style
      (fun f (hf : f ∈ i.operands.toList) => Operands.kind_of_mem_toList hf) hrest
    rw [Operands.map_fst_toList, i.shape_operands] at hread
    rw [readInstructionOperands, if_neg hmemory,
      operandTexts_of_not_isMemory (Bool.eq_false_iff.2 hmemory)]
    exact hread

/-- An instruction is read if its mnemonic is known and its operands are read, in whatever order. -/
theorem readInstruction_eq_ok {κ : Type} {registry : Registry κ} {code : List Char}
    {i : Instruction} :
    readInstruction registry code = .ok (i, rest) ↔
      ∃ mnemonic afterMnemonic filled, readSymbol code = some (mnemonic, afterMnemonic) ∧
        registry.op? (Opcode.dialectStem ++ String.ofList mnemonic) =
          some (.instruction i.opcode) ∧
        readInstructionOperands i.opcode (skipInline afterMnemonic) = .ok (filled, rest) ∧
        (filled.map fun f => (f.1.name, f.2.toAttribute)).Perm i.attributes := by
  rw [readInstruction]
  constructor
  · intro h
    split at h
    · simp [Fault.expected] at h
    · next mnemonic afterMnemonic hsymbol =>
      dsimp only at h
      split at h
      · next opcode hop =>
        obtain ⟨⟨filled, left⟩, hoperands, h⟩ := Except.bind_eq_ok.1 h
        obtain ⟨built, hbuild, h⟩ := Except.bind_eq_ok.1 h
        cases h
        obtain ⟨rfl, hperm⟩ := Instruction.ofDictionary_eq_ok.1 (Fault.of_ofRefusal_eq_ok hbuild)
        exact ⟨mnemonic, afterMnemonic, filled, hsymbol, hop, hoperands, hperm⟩
      · simp at h
  · rintro ⟨mnemonic, afterMnemonic, filled, hsymbol, hop, hoperands, hperm⟩
    have hbuild := Instruction.ofDictionary_eq_ok.2 ⟨rfl, hperm⟩
    simp only [hsymbol, hop, hoperands, hbuild, Fault.ofRefusal, bind, Except.bind, pure,
      Except.pure]

end RiscvDialect.Assembly

import RiscvDialect.Proofs.Assembly.Lines
import RiscvDialect.Proofs.Assembly.Operands
import RiscvDialect.Proofs.Registry

/-!
# Statements of assembly are read back

The statement of an op, without the indentation, is read as the op with wide integers, with any
registry that knows the dialect. What kind of statement it is shows at its first symbol and at the
character behind it: only a label has a colon there, and of the others only a directive starts with
a dot. So each case first says what stands behind the symbol.

## Main definitions

* `Op.code`: the statement of an op

## Main statements

* `readLabelDefinition_eq_none`: a symbol without a colon behind it
* `readCode_code`: statements are read back
-/

namespace RiscvDialect

open Text

/-- The statement of an op without its indentation. -/
def Op.code (style : RegisterStyle) : Op → List Char
  | .instruction i => (i.statement style).toList
  | .label l => l.name.toList ++ [':']
  | .directive d => d.statement.toList

namespace Assembly

variable {registry : Registry}

/-! ### What stands behind the first symbol -/

/-- A text with a space in front of it, unless it is empty. This is how a statement goes on behind
its first symbol. -/
def spaced : List Char → List Char
  | [] => []
  | text => ' ' :: text

theorem stops_spaced (text : List Char) : Stops isSymbolChar (spaced text) := by
  cases text with
  | nil => simp [spaced]
  | cons => simp [spaced]; decide

theorem skipInline_spaced {text : List Char} (h : Stops isInlineSpace text) :
    skipInline (spaced text) = text := by
  cases text with
  | nil => rfl
  | cons => exact skipInline_space h

/-- Without a colon behind its first symbol, a statement is no label. -/
theorem readLabelDefinition_eq_none {name rest : List Char} (hname : isSymbol name)
    (hrest : Stops isSymbolChar rest) (hcolon : (skipInline rest).head? ≠ some ':') :
    readLabelDefinition (name ++ rest) = none := by
  have hread := readLabel_append ⟨String.ofList name, by simpa using hname⟩ hrest
  simp only [String.toList_ofList] at hread
  rw [readLabelDefinition, hread]
  dsimp only
  split
  · next heq => simp [heq] at hcolon
  · rfl

theorem readLabelDefinition_append (l : Label) (rest : List Char) :
    readLabelDefinition (l.name.toList ++ ':' :: rest) = some (l, rest) := by
  have hcolon : skipInline (':' :: rest) = ':' :: rest := skipInline_of_stops (by simp; decide)
  rw [readLabelDefinition, readLabel_append l (by simp; decide)]
  simp only [hcolon]

theorem requireOp_eq_ok (hr : registry.KnowsDialect) {name : String} {kind : OpKind}
    (h : OpNamed name kind) (code : List Char) : requireOp registry name code = .ok () := by
  rw [requireOp, hr.op?_eq h]

/-- A statement is read as a whole if nothing is left of it. -/
theorem readCode_of_readStatement {code : List Char} {op : Op}
    (h : readStatement registry code = .ok (op, [])) : readCode registry code = .ok op := by
  rw [readCode, h]
  rfl

theorem readStatement_of_not_label {κ : Type} {registry : Registry κ} {code : List Char}
    (hlabel : readLabelDefinition code = none) (hdot : code.head? ≠ some '.') :
    readStatement registry code =
      (readInstruction registry code).map fun (i, rest) => (.instruction i, rest) := by
  unfold readStatement
  rw [hlabel]
  cases code with
  | nil => rfl
  | cons c code =>
    dsimp only
    split
    · next heq => simp [(List.cons.inj heq).1] at hdot
    · rfl

theorem readStatement_of_label (hr : registry.KnowsDialect) {code rest : List Char} {l : Label}
    (hlabel : readLabelDefinition code = some (l, rest)) :
    readStatement registry code = .ok (.label l, rest) := by
  unfold readStatement
  rw [hlabel]
  simp only [requireOp_eq_ok hr .label, bind, Except.bind, pure, Except.pure]

theorem readStatement_dot {body : List Char} (hlabel : readLabelDefinition ('.' :: body) = none) :
    readStatement registry ('.' :: body) =
      (readDirective registry ('.' :: body) body).map fun d => (.directive d, []) := by
  unfold readStatement
  rw [hlabel]
  rfl

/-! ### Labels and directives -/

theorem readCode_label (hr : registry.KnowsDialect) (l : Label) :
    readCode registry (l.name.toList ++ [':']) = .ok (.label l) :=
  readCode_of_readStatement (readStatement_of_label hr (readLabelDefinition_append l []))

/-- What it takes for a directive to have no defect. -/
theorem of_defect?_eq_none {name value : String} (h : Directive.defect? name value = none) :
    isSymbol name.toList ∧ ('\n' ∉ value.toList ∧ '\r' ∉ value.toList) ∧
      trim value.toList = value.toList ∧ value.toList.head? ≠ some ':' ∧
      uncommented value.toList = value.toList := by
  unfold Directive.defect? at h
  dsimp only at h
  split at h
  · simp at h
  · next hname =>
    split at h
    · simp at h
    · next hlines =>
      split at h
      · simp at h
      · next hspace =>
        split at h
        · simp at h
        · next hcolon =>
          split at h
          · simp at h
          · next hhash =>
            exact ⟨Decidable.not_not.1 hname, not_or.1 hlines, Decidable.not_not.1 hspace, hcolon,
              Decidable.not_not.1 hhash⟩

/-- A dot and a symbol are a symbol. -/
theorem isSymbol_dot_cons {name : List Char} (h : isSymbol name) : isSymbol ('.' :: name) := by
  simp only [isSymbol, Bool.and_eq_true, List.all_eq_true]
  exact ⟨by decide, fun _ => isSymbolChar_of_mem h⟩

theorem toList_directive_statement (d : Directive) :
    d.statement.toList = '.' :: (d.name.toList ++ spaced d.value.toList) := by
  rw [Directive.statement]
  split
  · next h => simp [String.isEmpty_iff.1 h, spaced]
  · next h =>
    cases hvalue : d.value.toList with
    | nil => simp [String.toList_eq_nil_iff.1 hvalue] at h
    | cons c later => simp [spaced, hvalue]

/-- Tabs and spaces are white space. -/
theorem isSpace_of_isInlineSpace {c : Char} (h : isInlineSpace c) : isSpace c := by
  rcases isInlineSpace_iff.1 h with rfl | rfl <;> decide

theorem readCode_directive (hr : registry.KnowsDialect) (d : Directive) :
    readCode registry d.statement.toList = .ok (.directive d) := by
  obtain ⟨hname, -, htrim, hcolon, -⟩ := of_defect?_eq_none d.defect?_eq_none
  obtain ⟨hstart, hend⟩ := trim_eq_self_iff.1 htrim
  have hskip := skipInline_spaced (hstart.mono fun _ => isSpace_of_isInlineSpace)
  have hlabel := readLabelDefinition_eq_none (isSymbol_dot_cons hname)
    (stops_spaced d.value.toList) (by rwa [hskip])
  have hvalue : trimEnd (skipInline (spaced d.value.toList)) = d.value.toList := by
    rw [hskip, trimEnd_eq_self_iff.2 hend]
  have hread := readSymbol_append hname (stops_spaced d.value.toList)
  refine readCode_of_readStatement ?_
  rw [List.cons_append] at hlabel
  rw [toList_directive_statement, readStatement_dot hlabel]
  simp only [readDirective, requireOp_eq_ok hr .directive, hread, hvalue,
    String.ofList_toList, Directive.ofNameValue_name_value, Fault.ofRefusal, bind, Except.bind,
    Except.map]

/-! ### Instructions -/

theorem isSymbol_mnemonic (opcode : Opcode) : isSymbol opcode.mnemonic.toList := by
  cases opcode <;> decide

/-- No mnemonic could be a directive. -/
theorem head?_mnemonic (opcode : Opcode) (rest : List Char) :
    (opcode.mnemonic.toList ++ rest).head? ≠ some '.' := by
  cases opcode <;> simp [Opcode.mnemonic, Opcode.entry]

theorem startsOperand_of_mem_operandTexts {style : RegisterStyle} {i : Instruction} {text : String}
    (h : text ∈ i.operandTexts style) : StartsOperand text.toList := by
  by_cases hmemory : i.opcode.isMemory
  · obtain ⟨value, base, displacement, htexts, -⟩ := operandTexts_of_isMemory style hmemory
    rw [htexts, List.mem_pair] at h
    rcases h with rfl | rfl
    · exact startsOperand_of_named (style.named_write value)
    · rw [Instruction.addressText, String.append_assoc, String.append_assoc, String.toList_append]
      exact (startsOperand_toString _).append _
  · rw [operandTexts_of_not_isMemory (Bool.eq_false_iff.2 hmemory)] at h
    obtain ⟨filled, -, rfl⟩ := List.mem_map.1 h
    exact startsOperand_assembly style filled.2

/-- The operands of an instruction as they are written. -/
def operandsText (style : RegisterStyle) (i : Instruction) : List Char :=
  (", ".intercalate (i.operandTexts style)).toList

/-- Operands start where the first of them does. -/
theorem startsOperand_operandsText {style : RegisterStyle} {i : Instruction}
    (h : i.operandTexts style ≠ []) : StartsOperand (operandsText style i) := by
  obtain ⟨text, later, htexts⟩ := List.exists_cons_of_ne_nil h
  have hmem : text ∈ i.operandTexts style := by
    rw [htexts]
    exact List.mem_cons_self
  rw [operandsText, htexts]
  exact startsOperand_intercalate (startsOperand_of_mem_operandTexts hmem) later

theorem toList_instruction_statement (style : RegisterStyle) (i : Instruction) :
    (i.statement style).toList = i.opcode.mnemonic.toList ++ spaced (operandsText style i) := by
  rw [Instruction.statement]
  split
  · next h => simp [operandsText, h, spaced]
  · next h =>
    obtain ⟨c, later, hcons, -⟩ := startsOperand_operandsText h
    rw [hcons, spaced, ← hcons]
    · simp [operandsText]
    · simp

/-- Neither a space nor a colon stands where operands could. -/
theorem operandsText_head (style : RegisterStyle) (i : Instruction) :
    Stops isInlineSpace (operandsText style i) ∧ (operandsText style i).head? ≠ some ':' := by
  by_cases h : i.operandTexts style = []
  · simp [operandsText, h]
  · have hstart := startsOperand_operandsText h
    refine ⟨hstart.stops_isInlineSpace, ?_⟩
    obtain ⟨c, later, hcons, hc⟩ := hstart
    rw [hcons, List.head?_cons, ne_eq, Option.some.injEq]
    rintro rfl
    exact absurd hc (by decide)

theorem readInstruction_statement (hr : registry.KnowsDialect) (style : RegisterStyle)
    (i : Instruction) :
    readInstruction registry (i.statement style).toList = .ok (i.widen, []) := by
  have hsymbol := readSymbol_append (isSymbol_mnemonic i.opcode)
    (stops_spaced (operandsText style i))
  obtain ⟨filled, hoperands, hperm⟩ := readInstructionOperands_append style i
    (stops_nil : Stops isSymbolChar [])
  rw [List.append_nil, ← operandsText] at hoperands
  rw [toList_instruction_statement]
  refine readInstruction_eq_ok.2 ⟨_, _, filled, hsymbol, ?_, ?_, ?_⟩
  · rw [String.ofList_toList]
    exact hr.op?_eq (.catalog i.opcode)
  · rw [skipInline_spaced (operandsText_head style i).1]
    exact hoperands
  · have hattributes : i.widen.attributes =
        i.operands.widen.toList.map fun f => (f.1.name, f.2.toAttribute) := by
      simp [Instruction.attributes, Instruction.widen, Operands.attributes]
    rw [hattributes]
    exact hperm.map _

theorem readCode_instruction (hr : registry.KnowsDialect) (style : RegisterStyle)
    (i : Instruction) :
    readCode registry (i.statement style).toList = .ok (.instruction i.widen) := by
  obtain ⟨hstart, hcolon⟩ := operandsText_head style i
  have hlabel := readLabelDefinition_eq_none (isSymbol_mnemonic i.opcode)
    (stops_spaced (operandsText style i)) (by rwa [skipInline_spaced hstart])
  have hdot := head?_mnemonic i.opcode (spaced (operandsText style i))
  rw [← toList_instruction_statement] at hlabel hdot
  refine readCode_of_readStatement ?_
  rw [readStatement_of_not_label hlabel hdot, readInstruction_statement hr]
  rfl

/-! ### All statements -/

/-- A statement is read back as its op, with wide integers. -/
theorem readCode_code (hr : registry.KnowsDialect) (style : RegisterStyle) (op : Op) :
    readCode registry (op.code style) = .ok op.widen := by
  cases op with
  | instruction i => exact readCode_instruction hr style i
  | label l => exact readCode_label hr l
  | directive d => exact readCode_directive hr d

end Assembly

end RiscvDialect

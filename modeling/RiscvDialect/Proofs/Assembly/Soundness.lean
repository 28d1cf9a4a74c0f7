import RiscvDialect.Proofs.Assembly.Lines
import RiscvDialect.Proofs.Assembly.Operands

/-!
# What assembly cannot say

Assembly has no way to write a width, and its readers take all integers to have 64 bits. This does
not depend on the registry: whatever instruction a mnemonic is taken for, its operands come from
the same few readers.

## Main statements

* `readMemory_eq_some`: the operands read from a register and an address
* `isWide_of_readInstructionOperands`: the operands of any instruction
* `isWide_of_parse`: a program that was read from assembly
-/

namespace RiscvDialect.Assembly

variable {registry : Registry} {text rest : List Char}

/-! ### Operands -/

theorem isWide_of_readImmediate {i : SizedInt} (h : readImmediate text = .ok (i, rest)) :
    i.width = 64 := by
  rw [readImmediate] at h
  split at h
  · simp [Fault.expected] at h
  · split at h
    · cases h
      rfl
    · simp at h

theorem isWide_of_readOffset {o : Offset} (h : readOffset text = .ok (o, rest)) :
    o.toAttribute.IsWide := by
  rw [readOffset] at h
  split at h
  · cases h
    rintro i ⟨⟩
    rfl
  · split at h
    · cases h
      simp [Offset.toAttribute, Attribute.IsWide]
    · simp [Fault.expected] at h

theorem isWide_of_readOperand {kind : SlotKind} {operand : Operand}
    (h : readOperand kind text = .ok (operand, rest)) : operand.toAttribute.IsWide := by
  cases kind with
  | register =>
    obtain ⟨⟨r, left⟩, -, heq⟩ := Except.map_eq_ok.1 h
    cases heq
    simp [Operand.toAttribute, Attribute.IsWide]
  | immediate =>
    obtain ⟨⟨i, left⟩, hread, heq⟩ := Except.map_eq_ok.1 h
    cases heq
    rintro j ⟨⟩
    exact isWide_of_readImmediate hread
  | offset =>
    obtain ⟨⟨o, left⟩, hread, heq⟩ := Except.map_eq_ok.1 h
    cases heq
    exact isWide_of_readOffset hread

/-- The operands of some slots, in the order of these. -/
theorem isWide_of_readOperands {slots : List Slot} {filled : List (Slot × Operand)}
    (h : readOperands slots text = .ok (filled, rest)) :
    ∀ f ∈ filled, f.2.toAttribute.IsWide := by
  induction slots generalizing text filled rest with
  | nil =>
    cases h
    simp
  | cons slot slots ih =>
    cases slots with
    | nil =>
      obtain ⟨⟨operand, left⟩, hread, heq⟩ := Except.map_eq_ok.1 h
      cases heq
      simpa using isWide_of_readOperand hread
    | cons next slots =>
      rw [readOperands.eq_3 _ _ _ (by simp)] at h
      obtain ⟨⟨operand, afterOperand⟩, hread, h⟩ := Except.bind_eq_ok.1 h
      obtain ⟨afterComma, -, h⟩ := Except.bind_eq_ok.1 h
      obtain ⟨⟨later, afterLater⟩, hlater, h⟩ := Except.bind_eq_ok.1 h
      cases h
      exact List.forall_mem_cons.2 ⟨isWide_of_readOperand hread, ih hlater⟩

/-- A register and an address give operands to three slots. -/
theorem readMemory_eq_some {slot : Slot} {filled : List (Slot × Operand)}
    (h : readMemory slot text = .ok (some (filled, rest))) :
    ∃ value base displacement, filled = [(slot, .register value), (.rs1, .register base),
      (.immediate, .immediate (.full displacement))] := by
  rw [readMemory] at h
  split at h
  · obtain ⟨⟨value, afterValue⟩, -, h⟩ := Except.bind_eq_ok.1 h
    dsimp only at h
    split at h
    · simp [pure, Except.pure] at h
    · split at h
      · split at h
        · obtain ⟨⟨base, afterBase⟩, -, h⟩ := Except.bind_eq_ok.1 h
          dsimp only at h
          split at h
          · cases h
            exact ⟨_, _, _, rfl⟩
          · simp [pure, Except.pure] at h
        · simp [pure, Except.pure] at h
      · simp [pure, Except.pure] at h
  · simp [pure, Except.pure] at h

/-- The operands of any instruction, in either form. -/
theorem isWide_of_readInstructionOperands {opcode : Opcode} {filled : List (Slot × Operand)}
    (h : readInstructionOperands opcode text = .ok (filled, rest)) :
    ∀ f ∈ filled, f.2.toAttribute.IsWide := by
  rw [readInstructionOperands] at h
  split at h
  · obtain ⟨memory?, hmemory, h⟩ := Except.bind_eq_ok.1 h
    split at h
    · cases h
      obtain ⟨value, base, displacement, rfl⟩ := readMemory_eq_some hmemory
      simp [Operand.toAttribute, Attribute.IsWide, SizedInt.full]
    · exact isWide_of_readOperands h
  · exact isWide_of_readOperands h

/-! ### Statements and programs -/

theorem isWide_of_readInstruction {i : Instruction}
    (h : readInstruction registry text = .ok (i, rest)) : (Op.instruction i).IsWide := by
  obtain ⟨mnemonic, afterMnemonic, filled, -, -, hoperands, hperm⟩ := readInstruction_eq_ok.1 h
  intro entry hentry
  obtain ⟨f, hf, rfl⟩ := List.mem_map.1 (hperm.mem_iff.2 hentry)
  exact isWide_of_readInstructionOperands hoperands f hf

theorem isWide_of_readStatement {op : Op} (h : readStatement registry text = .ok (op, rest)) :
    op.IsWide := by
  unfold readStatement at h
  split at h
  · obtain ⟨_, -, h⟩ := Except.bind_eq_ok.1 h
    cases h
    simp [Op.IsWide, Op.attributes, Label.attributes, Attribute.IsWide]
  · split at h
    · obtain ⟨d, -, heq⟩ := Except.map_eq_ok.1 h
      cases heq
      simp [Op.IsWide, Op.attributes, Directive.attributes, Attribute.IsWide]
    · obtain ⟨⟨i, left⟩, hread, heq⟩ := Except.map_eq_ok.1 h
      cases heq
      exact isWide_of_readInstruction hread

theorem isWide_of_readCode {op : Op} (h : readCode registry text = .ok op) : op.IsWide := by
  rw [readCode] at h
  obtain ⟨⟨read, left⟩, hread, h⟩ := Except.bind_eq_ok.1 h
  dsimp only at h
  split at h
  · cases h
    exact isWide_of_readStatement hread
  · simp [Fault.expected] at h

/-- Whatever is read from assembly has wide integers only. -/
theorem isWide_of_parse {source : String} {p : Program} (h : parse registry source = .ok p) :
    ∀ op ∈ p, op.IsWide := by
  have hcodes := parse_eq_ok.1 h
  clear h
  generalize codes source.toList = statements at hcodes
  induction hcodes with
  | nil => simp
  | cons hop _ ih => exact List.forall_mem_cons.2 ⟨isWide_of_readCode hop, ih⟩

end RiscvDialect.Assembly

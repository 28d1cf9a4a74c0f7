import RiscvDialect.Proofs.Assembly.Statement

/-!
# Behind a mnemonic

A statement that starts with a mnemonic is read as an instruction of its opcode, and what is read
behind the mnemonic depends on the opcode only. This holds for all registries: one may know further
mnemonics, and not those of the dialect.

## Main definitions

* `Assembly.IsMnemonic`: a symbol that is read as a mnemonic

## Main statements

* `Assembly.readCode_mnemonic`: a statement that starts with a mnemonic
-/

namespace RiscvDialect.Assembly

open Text

/-- A symbol that is read as the mnemonic of an opcode. A symbol that starts with a dot never is,
even if it is registered. -/
structure IsMnemonic {κ : Type} (registry : Registry κ) (mnemonic : String) (opcode : Opcode) :
    Prop where
  isSymbol : isSymbol mnemonic.toList
  head?_ne : mnemonic.toList.head? ≠ some '.'
  op?_eq : registry.op? (Opcode.dialectStem ++ mnemonic) = some (.instruction opcode)

variable {κ : Type} {registry : Registry κ} {mnemonic : String} {opcode : Opcode}
  {behind : List Char}

/-- Behind its mnemonic, an instruction is read without the mnemonic. -/
theorem readCode_mnemonic (h : IsMnemonic registry mnemonic opcode)
    (hstops : Stops isSymbolChar behind) (hcolon : (skipInline behind).head? ≠ some ':') :
    readCode registry (mnemonic.toList ++ behind) = (do
      let (operands, rest) ← readInstructionOperands opcode (skipInline behind)
      let i ← Fault.ofRefusal (mnemonic.toList ++ behind) (Instruction.ofDictionary opcode
        (operands.map fun (slot, operand) => (slot.name, operand.toAttribute)))
      match skipInline rest with
      | [] => return .instruction i
      | rest => Fault.expected "end of line" rest) := by
  have hlabel := readLabelDefinition_eq_none h.isSymbol hstops hcolon
  have hhead : (mnemonic.toList ++ behind).head? ≠ some '.' := by
    obtain ⟨c, later, hcons, -⟩ := exists_eq_cons_of_isSymbol h.isSymbol
    have hne := h.head?_ne
    rw [hcons] at hne ⊢
    exact hne
  rw [readCode, readStatement_of_not_label hlabel hhead, readInstruction,
    readSymbol_append h.isSymbol hstops]
  simp only [String.ofList_toList, h.op?_eq]
  cases readInstructionOperands opcode (skipInline behind) with
  | error fault => rfl
  | ok result =>
    simp only [bind, Except.bind]
    cases Fault.ofRefusal (mnemonic.toList ++ behind) (Instruction.ofDictionary opcode
      (result.1.map fun (slot, operand) => (slot.name, operand.toAttribute))) <;> rfl

end RiscvDialect.Assembly

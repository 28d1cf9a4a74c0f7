import RiscvDialect.Proofs.Assembly.Grammar.Operands
import RiscvDialect.Proofs.Assembly.Statement

/-!
# Instructions are read by the grammar

An instruction is built from a dictionary, for which the order of the operands is lost. It comes
back because each slot has one operand, of the kind that the slot asks for; so the operands that
were read are those of the instruction, in the order of the slots or moved to where an address has
them.

## Main definitions

* `entriesOf`: the dictionary from which an instruction is built

## Main statements

* `operandsText_of_read`, `exists_read_of_operandsText`: the operands of an instruction
* `op?_riscv_mnemonic`: the names of instructions
-/

namespace RiscvDialect.Assembly.Grammar

open Text

variable {text rest : List Char}

/-! ### Operands of instructions -/

/-- The dictionary from which an instruction is built. -/
def entriesOf (filled : List (Slot × Operand)) : Dictionary :=
  filled.map fun f => (f.1.name, f.2.toAttribute)

theorem entriesOf_toList (i : Instruction) : entriesOf i.operands.toList = i.attributes := by
  simp [entriesOf, Instruction.attributes, Operands.attributes]

/-- Instructions of one opcode with the same values are the same. -/
theorem eq_of_perm_attributes {entries : Dictionary} {i j : Instruction}
    (hopcode : i.opcode = j.opcode) (hi : entries.Perm i.attributes)
    (hj : entries.Perm j.attributes) : i = j := by
  have h := Instruction.ofDictionary_eq_ok.2 ⟨rfl, hi⟩
  rw [Instruction.ofDictionary_eq_ok.2 ⟨hopcode.symm, hj⟩] at h
  exact (Except.ok.inj h).symm

/-- A dictionary without repeated keys cannot be rearranged if its keys stay where they are. -/
theorem eq_of_perm_of_keys {entries entries' : Dictionary} (hperm : entries.Perm entries')
    (hkeys : entries.map Prod.fst = entries'.map Prod.fst)
    (hnodup : (entries.map Prod.fst).Nodup) : entries = entries' := by
  induction entries generalizing entries' with
  | nil => exact hperm.nil_eq
  | cons entry later ih =>
    cases entries' with
    | nil => exact absurd hperm.symm.nil_eq (by simp)
    | cons entry' later' =>
      rw [List.map_cons, List.map_cons, List.cons.injEq] at hkeys
      rw [List.map_cons, List.nodup_cons] at hnodup
      have hentry : entry = entry' := by
        rcases List.mem_cons.1 (hperm.mem_iff.1 List.mem_cons_self) with h | h
        · exact h
        · exact absurd (hkeys.2 ▸ List.mem_map_of_mem h) hnodup.1
      subst hentry
      rw [ih ((List.perm_cons entry).1 hperm) hkeys.2 hnodup.2]

theorem Operand.eq_of_toAttribute {a b : Operand} (hkind : a.kind = b.kind)
    (h : a.toAttribute = b.toAttribute) : a = b := by
  rcases a with r | i | (i | l) <;> rcases b with r' | i' | (i' | l') <;>
    simp_all [Operand.kind, Operand.toAttribute, Offset.toAttribute]

/-- Operands of the kinds of their slots are known by their values. -/
theorem eq_of_entriesOf {filled filled' : List (Slot × Operand)}
    (hkind : ∀ f ∈ filled, f.2.kind = f.1.kind) (hkind' : ∀ f ∈ filled', f.2.kind = f.1.kind)
    (h : entriesOf filled = entriesOf filled') : filled = filled' := by
  induction filled generalizing filled' with
  | nil => exact (List.map_eq_nil_iff.1 h.symm).symm
  | cons f later ih =>
    cases filled' with
    | nil => simp [entriesOf] at h
    | cons f' later' =>
      rw [List.forall_mem_cons] at hkind hkind'
      simp only [entriesOf, List.map_cons, List.cons.injEq, Prod.mk.injEq] at h
      obtain ⟨⟨hname, hvalue⟩, hlater⟩ := h
      have hslot : f.1 = f'.1 := Slot.name_injective hname
      have hoperand : f.2 = f'.2 := by
        refine Operand.eq_of_toAttribute ?_ hvalue
        rw [hkind.1, hkind'.1, hslot]
      rw [Prod.ext hslot hoperand, ih hkind.2 hkind'.2 hlater]

theorem OperandText.kind_eq {kind : SlotKind} {written : List Char} {operand : Operand}
    (h : OperandText kind written operand) : operand.kind = kind := by
  cases h <;> rfl

/-- Operands fill the slots that they were written for, each with a value of its kind. -/
theorem PlainText.fills {slots : List Slot} {written : List Char} {filled : List (Slot × Operand)}
    (h : PlainText slots written filled) :
    filled.map Prod.fst = slots ∧ ∀ f ∈ filled, f.2.kind = f.1.kind := by
  induction h with
  | none => simp
  | last hoperand => simp [hoperand.kind_eq]
  | more hoperand hcomma hlater ih =>
    obtain ⟨hslots, hkind⟩ := ih
    exact ⟨by rw [List.map_cons, hslots], List.forall_mem_cons.2 ⟨hoperand.kind_eq, hkind⟩⟩

/-- Operands in the order of the slots are those of the instruction that is built from them. -/
theorem PlainText.eq_toList {i : Instruction} {written : List Char}
    {filled : List (Slot × Operand)} (h : PlainText i.opcode.shape.slots written filled)
    (hfilled : (entriesOf filled).Perm i.attributes) : filled = i.operands.toList := by
  obtain ⟨hslots, hkind⟩ := h.fills
  refine eq_of_entriesOf hkind (fun f hf => Operands.kind_of_mem_toList hf) ?_
  have hkeys : (entriesOf filled).map Prod.fst = i.opcode.shape.slots.map Slot.name := by
    rw [← hslots, entriesOf, List.map_map, List.map_map]
    rfl
  rw [entriesOf_toList]
  refine eq_of_perm_of_keys hfilled ?_ ?_
  · rw [hkeys, Instruction.map_fst_attributes]
  · rw [hkeys]
    exact i.opcode.shape.nodup_names

theorem shape_of_load {opcode : Opcode} (h : opcode.category = .load) :
    opcode.shape = .rdRs1Imm := by
  revert h
  cases opcode <;> decide

theorem shape_of_store {opcode : Opcode} (h : opcode.category = .store) :
    opcode.shape = .rs1Rs2Imm := by
  revert h
  cases opcode <;> decide

theorem isMemory_iff {opcode : Opcode} :
    opcode.isMemory ↔ opcode.category = .load ∨ opcode.category = .store := by
  simp [Opcode.isMemory]

/-- A register and an address are the operands of a load or a store. -/
theorem operandsText_of_addressText {i : Instruction} {written : List Char} {value base : Register}
    {displacement : Int64} (hmemory : i.opcode.isMemory)
    (h : AddressText written value displacement base)
    (hfilled : (entriesOf (addressOperands (movedSlot i.opcode.shape) value displacement
      base)).Perm i.attributes) : OperandsText .address i written := by
  rcases isMemory_iff.1 hmemory with hload | hstore
  · have hshape := shape_of_load hload
    let j : Instruction := ⟨i.opcode, .rdRs1Imm value base (.full displacement), hshape.symm⟩
    have hij : i = j := by
      refine eq_of_perm_attributes rfl hfilled ?_
      rw [hshape]
      exact .refl _
    exact .load hload h (congrArg Instruction.operands hij)
  · have hshape := shape_of_store hstore
    let j : Instruction := ⟨i.opcode, .rs1Rs2Imm base value (.full displacement), hshape.symm⟩
    have hij : i = j := by
      refine eq_of_perm_attributes rfl hfilled ?_
      rw [hshape]
      exact .swap _ _ _
    exact .store hstore h (congrArg Instruction.operands hij)

/-- Operands that are read for an instruction are written in one of the two forms. -/
theorem operandsText_of_read {i : Instruction} {filled : List (Slot × Operand)}
    (h : readInstructionOperands i.opcode text = .ok (filled, rest))
    (hfilled : (entriesOf filled).Perm i.attributes) :
    ∃ form written, OperandsText form i written ∧ text = written ++ rest := by
  have hplain : readOperands i.opcode.shape.slots text = .ok (filled, rest) →
      ∃ form written, OperandsText form i written ∧ text = written ++ rest := by
    intro hread
    obtain ⟨written, hwritten, htext⟩ := plainText_of_readOperands hread
    have heq := hwritten.eq_toList hfilled
    subst heq
    exact ⟨.plain, written, .plain hwritten, htext⟩
  rw [readInstructionOperands] at h
  split at h
  · next hmemory =>
    obtain ⟨result?, hread, h⟩ := Except.bind_eq_ok.1 h
    split at h
    · cases h
      obtain ⟨written, value, displacement, base, hwritten, htext, rfl⟩ :=
        addressText_of_readMemory hread
      exact ⟨.address, written, operandsText_of_addressText hmemory hwritten hfilled, htext⟩
    · exact hplain h
  · exact hplain h

/-- The operands of a load or a store start with two registers. -/
theorem exists_slots_of_isMemory {opcode : Opcode} (h : opcode.isMemory) :
    ∃ first second slots, opcode.shape.slots = first :: second :: slots ∧
      first.kind = .register ∧ second.kind = .register := by
  rcases shape_of_isMemory h with hshape | hshape <;> rw [hshape] <;>
    exact ⟨_, _, _, rfl, rfl, rfl⟩

theorem exists_read_of_operandsText {form : Form} {i : Instruction} {written : List Char}
    (h : OperandsText form i written) (hrest : Stops isSymbolChar rest) :
    ∃ filled, readInstructionOperands i.opcode (written ++ rest) = .ok (filled, rest) ∧
      (entriesOf filled).Perm i.attributes := by
  cases h with
  | plain hplain =>
    have hread := readOperands_of_plainText hplain hrest
    refine ⟨i.operands.toList, ?_, by rw [entriesOf_toList]⟩
    rw [readInstructionOperands]
    split
    · next hmemory =>
      obtain ⟨first, second, slots, hslots, hfirst, hsecond⟩ := exists_slots_of_isMemory hmemory
      rw [readMemory_of_plainText _ hfirst hsecond (hslots ▸ hplain)]
      exact hread
    · exact hread
  | @load _ _ value base displacement hload haddress hi =>
    refine ⟨addressOperands (movedSlot i.opcode.shape) value displacement base, ?_, ?_⟩
    · rw [readInstructionOperands, if_pos (isMemory_iff.2 (.inl hload)),
        readMemory_of_addressText haddress]
      rfl
    · rw [shape_of_load hload, ← entriesOf_toList, hi]
      exact .refl _
  | @store _ _ value base displacement hstore haddress hi =>
    refine ⟨addressOperands (movedSlot i.opcode.shape) value displacement base, ?_, ?_⟩
    · rw [readInstructionOperands, if_pos (isMemory_iff.2 (.inr hstore)),
        readMemory_of_addressText haddress]
      rfl
    · rw [shape_of_store hstore, ← entriesOf_toList, hi]
      exact .swap _ _ _

/-- Operands do not start with spaces and tabs. -/
theorem OperandsText.stops_isInlineSpace {form : Form} {i : Instruction} {written : List Char}
    (h : OperandsText form i written) : Stops isInlineSpace written := by
  cases h with
  | plain hplain => exact hplain.stops_isInlineSpace
  | load _ haddress => exact haddress.startsOperand.stops_isInlineSpace
  | store _ haddress => exact haddress.startsOperand.stops_isInlineSpace

/-! ### Mnemonics -/

theorem MnemonicText.isSymbol {mnemonic : List Char} {opcode : Opcode}
    (h : MnemonicText mnemonic opcode) : isSymbol mnemonic := by
  cases h with
  | catalog => exact isSymbol_mnemonic opcode
  | sltui => decide

theorem MnemonicText.head?_append {mnemonic : List Char} {opcode : Opcode}
    (h : MnemonicText mnemonic opcode) (rest : List Char) :
    (mnemonic ++ rest).head? ≠ some '.' := by
  cases h with
  | catalog => exact head?_mnemonic opcode rest
  | sltui => simp

theorem op?_riscv {name : String} {kind : OpKind} :
    Registry.riscv.op? name = some kind ↔ OpNamed name kind := by
  change Registry.riscv.Knows (.op name kind) ↔ _
  rw [Registry.knows_riscv]
  rfl

/-- The dialect knows the mnemonics under its stem. -/
theorem op?_riscv_mnemonic {mnemonic : List Char} {opcode : Opcode} :
    Registry.riscv.op? (Opcode.dialectStem ++ String.ofList mnemonic) =
      some (.instruction opcode) ↔ MnemonicText mnemonic opcode := by
  rw [op?_riscv]
  constructor
  · intro h
    generalize hname : Opcode.dialectStem ++ String.ofList mnemonic = name at h
    cases h with
    | catalog =>
      rw [Opcode.name, String.append_right_inj] at hname
      rw [← String.toList_ofList (l := mnemonic), hname]
      exact .catalog opcode
    | otherName hmem =>
      obtain ⟨hsltui, rfl⟩ : name = "riscv.sltui" ∧ opcode = .sltiu := by
        simpa [Opcode.aliases] using hmem
      obtain rfl : name = Opcode.dialectStem ++ "sltui" := hsltui.trans (by decide)
      rw [String.append_right_inj] at hname
      rw [← String.toList_ofList (l := mnemonic), hname]
      exact .sltui
  · intro h
    cases h with
    | catalog =>
      rw [String.ofList_toList]
      exact .catalog opcode
    | sltui => exact .otherName (by decide)

end RiscvDialect.Assembly.Grammar

import RiscvDialect.Proofs.Dictionary

/-!
# Instructions from dictionaries

Which dictionaries make an instruction is said by the slots of its shape: their names are the keys,
each once and in any order, and their kinds say what the values may be. Building an instruction
checks the keys first, then takes the operand of each slot from the dictionary, and then puts the
operands together. This last step goes by the shape and has no place for too few operands or for
operands of other kinds. It is never given any: what the slots accept is what the shape needs.

## Main definitions

* `Attribute.toOperand`, `Dictionary.operand`: the operand that a slot takes from a dictionary
* `Operands.ofList?`: the operands of a shape put together, if they fit

## Main statements

* `Attribute.exists_toOperand_iff`: a slot takes the values that it accepts
* `Instruction.operands_ofDictionary`: the steps in which an instruction is built
* `Instruction.isSome_ofList?_of_operands`: the operands taken from a dictionary fit
* `Instruction.ofDictionary_exact`: which dictionaries make an instruction, and which instruction
-/

namespace RiscvDialect

/-! ### One operand -/

/-- A value as the operand in a slot. -/
def Attribute.toOperand (op : String) (slot : Slot) (value : Attribute) :
    Except DialectError Operand :=
  match slot.kind with
  | .register => Operand.register <$> value.toRegister op slot.name
  | .immediate => Operand.immediate <$> value.toInteger op slot.name
  | .offset => Operand.offset <$> Offset.ofAttribute value

/-- The operand that a dictionary has for a slot. -/
def Dictionary.operand (entries : Dictionary) (op : String) (slot : Slot) :
    Except DialectError Operand := do
  (← entries.require op slot.name).toOperand op slot

/-- A slot takes exactly the values that it accepts. -/
theorem Attribute.exists_toOperand_iff (op : String) {slot : Slot} {value : Attribute} :
    (∃ operand, value.toOperand op slot = .ok operand) ↔ slot.kind.accepts value.kind := by
  rw [toOperand]
  cases slot.kind <;> cases value <;>
    simp [toRegister, toInteger, Offset.ofAttribute, SlotKind.accepts, kind, Functor.map,
      Except.map]

/-- A dictionary has an operand for a slot if it has a value that the slot accepts. -/
theorem Dictionary.exists_operand_iff (op : String) {entries : Dictionary} {slot : Slot} :
    (∃ operand, entries.operand op slot = .ok operand) ↔
      ∃ value, entries.lookup slot.name = some value ∧ slot.kind.accepts value.kind := by
  simp only [operand, Except.bind_eq_ok, require_eq_ok, ← Attribute.exists_toOperand_iff op]
  exact ⟨fun ⟨o, v, hv, ho⟩ => ⟨v, hv, o, ho⟩, fun ⟨v, hv, o, ho⟩ => ⟨o, v, hv, ho⟩⟩

/-- All elements of a list have a result if each of them has one. -/
theorem exists_mapM_eq_ok {ε α β : Type} {f : α → Except ε β} {l : List α} :
    (∃ bs, l.mapM f = .ok bs) ↔ ∀ a ∈ l, ∃ b, f a = .ok b := by
  induction l with
  | nil => simp [pure, Except.pure]
  | cons a l ih =>
    rw [List.forall_mem_cons, ← ih, List.mapM_cons]
    simp only [Except.bind_eq_ok, pure, Except.pure, Except.ok.injEq]
    constructor
    · rintro ⟨_, b, hb, bs, hbs, rfl⟩
      exact ⟨⟨b, hb⟩, bs, hbs⟩
    · rintro ⟨⟨b, hb⟩, bs, hbs⟩
      exact ⟨_, b, hb, bs, hbs, rfl⟩

/-! ### All operands -/

namespace Operands

/-- The operands of a shape, put together in the order of its slots. There are none for too few
operands or for operands of other kinds; what comes after the third is not looked at. -/
def ofList? : Shape → List Operand → Option Operands
  | .rdRs1Imm, .register rd :: .register rs1 :: .immediate i :: _ => some (.rdRs1Imm rd rs1 i)
  | .rdRs1Off, .register rd :: .register rs1 :: .offset o :: _ => some (.rdRs1Off rd rs1 o)
  | .rs1Rs2Imm, .register rs1 :: .register rs2 :: .immediate i :: _ => some (.rs1Rs2Imm rs1 rs2 i)
  | .rs1Rs2Off, .register rs1 :: .register rs2 :: .offset o :: _ => some (.rs1Rs2Off rs1 rs2 o)
  | .rdRs1Rs2, .register rd :: .register rs1 :: .register rs2 :: _ => some (.rdRs1Rs2 rd rs1 rs2)
  | .rsRtOff, .register rs :: .register rt :: .offset o :: _ => some (.rsRtOff rs rt o)
  | .rdImm, [.register rd, .immediate i] => some (.rdImm rd i)
  | .rdOff, [.register rd, .offset o] => some (.rdOff rd o)
  | .rsOff, [.register rs, .offset o] => some (.rsOff rs o)
  | .rdRs, [.register rd, .register rs] => some (.rdRs rd rs)
  | .noOperands, [] => some .noOperands
  | _, _ => none

/-- Operands that were taken apart can be put together again. -/
theorem ofList?_toList {operands : Operands} {shape : Shape} (h : operands.shape = shape) :
    ofList? shape (operands.toList.map Prod.snd) = some operands := by
  subst h
  cases operands <;> rfl

end Operands

/-! ### Building instructions -/

namespace Instruction

variable {opcode : Opcode} {entries : Dictionary}

/-- Operands that are built slot by slot are those that the dictionary has for the slots, and if
there are none for a slot, the refusal is the same. -/
theorem values_build (op : String) (shape : Shape) (entries : Dictionary) :
    (fun filled => (Operands.toList filled.val).map Prod.snd) <$>
      OperandsWith.build
        (fun slot => do (← entries.require op slot.name).toRegister op slot.name)
        (fun slot => do (← entries.require op slot.name).toInteger op slot.name)
        (fun slot => do Offset.ofAttribute (← entries.require op slot.name)) shape =
    shape.slots.mapM (entries.operand op) := by
  cases shape <;>
    simp [OperandsWith.build, Shape.slots, Slot.kind, Operands.toList, Dictionary.operand,
      Attribute.toOperand]

/-- The operands taken from a dictionary fit together. -/
theorem isSome_ofList?_of_operands {op : String} {shape : Shape} {filled : List Operand}
    (h : shape.slots.mapM (entries.operand op) = .ok filled) :
    (Operands.ofList? shape filled).isSome := by
  rw [← values_build] at h
  obtain ⟨built, -, rfl⟩ := Except.map_eq_ok.1 h
  simp [Operands.ofList?_toList built.property]

/-- An instruction is built in three steps. The keys are checked, the operands are taken, and they
are put together. -/
theorem operands_ofDictionary (opcode : Opcode) (entries : Dictionary) :
    (fun i => some i.operands) <$> ofDictionary opcode entries = (do
      entries.checkKeys opcode.name (opcode.shape.slots.map Slot.name)
      Operands.ofList? opcode.shape <$>
        opcode.shape.slots.mapM (entries.operand opcode.name)) := by
  have hfit (built : { operands : Operands // operands.shape = opcode.shape }) :=
    Operands.ofList?_toList built.property
  rw [← values_build]
  simp [ofDictionary, hfit]

/-- An instruction is built if the keys pass and there is a fitting value for each slot. -/
theorem exists_ofDictionary_iff_checkKeys : (∃ i, ofDictionary opcode entries = .ok i) ↔
    entries.checkKeys opcode.name (opcode.shape.slots.map Slot.name) = .ok () ∧
      ∀ slot ∈ opcode.shape.slots,
        ∃ value, entries.lookup slot.name = some value ∧ slot.kind.accepts value.kind := by
  have hsteps := operands_ofDictionary opcode entries
  simp only [← Dictionary.exists_operand_iff opcode.name, ← exists_mapM_eq_ok]
  constructor
  · rintro ⟨i, hi⟩
    rw [hi] at hsteps
    obtain ⟨_, hkeys, hfit⟩ := Except.bind_eq_ok.1 hsteps.symm
    obtain ⟨filled, hfilled, -⟩ := Except.map_eq_ok.1 hfit
    exact ⟨hkeys, filled, hfilled⟩
  · rintro ⟨hkeys, filled, hfilled⟩
    have hbuilt := hsteps.trans
      (Except.bind_eq_ok.2 ⟨(), hkeys, Except.map_eq_ok.2 ⟨filled, hfilled, rfl⟩⟩)
    obtain ⟨i, hi, -⟩ := Except.map_eq_ok.1 hbuilt
    exact ⟨i, hi⟩

/-- An instruction can be built from the dictionaries with the slots of its shape for keys and with
values that the slots accept. -/
theorem exists_ofDictionary_iff : (∃ i, ofDictionary opcode entries = .ok i) ↔
    (entries.map Prod.fst).Perm (opcode.shape.slots.map Slot.name) ∧
      ∀ slot ∈ opcode.shape.slots, ∀ value, (slot.name, value) ∈ entries →
        slot.kind.accepts value.kind := by
  have hnames := opcode.shape.nodup_names
  rw [exists_ofDictionary_iff_checkKeys, Dictionary.checkKeys_eq_ok]
  constructor
  · rintro ⟨⟨hkeys, hsubset⟩, hslots⟩
    -- neither list repeats a name, so for a rearrangement they need only have the same members
    refine ⟨(List.perm_ext_iff_of_nodup hkeys hnames).2 fun key => ⟨hsubset key, fun hkey => ?_⟩,
      fun slot hslot value hmem => ?_⟩
    · obtain ⟨slot, hslot, rfl⟩ := List.mem_map.1 hkey
      obtain ⟨value, hvalue, -⟩ := hslots slot hslot
      exact List.mem_map_of_mem ((lookup_eq_some_iff_mem hkeys).1 hvalue)
    · obtain ⟨value', hvalue', haccepts⟩ := hslots slot hslot
      rw [(lookup_eq_some_iff_mem hkeys).2 hmem] at hvalue'
      cases hvalue'
      exact haccepts
  · rintro ⟨hperm, haccepts⟩
    have hkeys : (entries.map Prod.fst).Nodup := hperm.nodup_iff.2 hnames
    refine ⟨⟨hkeys, fun key => hperm.mem_iff.1⟩, fun slot hslot => ?_⟩
    obtain ⟨⟨key, value⟩, hmem, hkey⟩ :=
      List.mem_map.1 (hperm.mem_iff.2 (List.mem_map_of_mem hslot))
    cases hkey
    exact ⟨value, (lookup_eq_some_iff_mem hkeys).2 hmem, haccepts slot hslot value hmem⟩

/-- Which dictionaries make an instruction, and which instruction they make. There is one exactly if
the keys are the names of the slots, each once, and each slot accepts the kind of its value. It has
the opcode asked for and the entries for its values, sorted by slot, so the order of the entries
does not matter, and every instruction is made by its own values. When the operands are put together
they always fit. -/
theorem ofDictionary_exact (opcode : Opcode) (entries : Dictionary) :
    ((∃ i, ofDictionary opcode entries = .ok i) ↔
      (entries.map Prod.fst).Perm (opcode.shape.slots.map Slot.name) ∧
        ∀ slot ∈ opcode.shape.slots, ∀ value, (slot.name, value) ∈ entries →
          slot.kind.accepts value.kind) ∧
    (∀ i, ofDictionary opcode entries = .ok i →
      i.opcode = opcode ∧ i.attributes.Perm entries ∧
        i.attributes.map Prod.fst = opcode.shape.slots.map Slot.name) ∧
    (∀ entries' i, entries'.Perm entries →
      (ofDictionary opcode entries' = .ok i ↔ ofDictionary opcode entries = .ok i)) ∧
    (∀ i : Instruction, ofDictionary i.opcode i.attributes = .ok i) ∧
    (fun i => some i.operands) <$> ofDictionary opcode entries = (do
      entries.checkKeys opcode.name (opcode.shape.slots.map Slot.name)
      Operands.ofList? opcode.shape <$>
        opcode.shape.slots.mapM (entries.operand opcode.name)) ∧
    (∀ filled, opcode.shape.slots.mapM (entries.operand opcode.name) = .ok filled →
      (Operands.ofList? opcode.shape filled).isSome) := by
  refine ⟨exists_ofDictionary_iff, fun i hi => ?_, fun entries' i hperm => ?_,
    fun i => ofDictionary_eq_ok.2 ⟨rfl, List.Perm.refl _⟩, operands_ofDictionary opcode entries,
    fun _ => isSome_ofList?_of_operands⟩
  · obtain ⟨rfl, hperm⟩ := ofDictionary_eq_ok.1 hi
    exact ⟨rfl, hperm.symm, map_fst_attributes i⟩
  · simp only [ofDictionary_eq_ok]
    exact and_congr_right fun _ => ⟨hperm.symm.trans, hperm.trans⟩

/-- The entries of an `addi` may come in another order than its slots. -/
theorem ofDictionary_exact_addi :
    ofDictionary .addi
        [("immediate", .integer ⟨-4, 12, by decide, by decide⟩), ("rs1", .register ⟨2⟩),
          ("rd", .register ⟨10⟩)] =
      .ok ⟨.addi, .rdRs1Imm ⟨10⟩ ⟨2⟩ ⟨-4, 12, by decide, by decide⟩, rfl⟩ := by
  let i : Instruction := ⟨.addi, .rdRs1Imm ⟨10⟩ ⟨2⟩ ⟨-4, 12, by decide, by decide⟩, rfl⟩
  obtain ⟨-, -, hsorted, hself, -⟩ := ofDictionary_exact .addi i.attributes
  exact (hsorted _ i (by decide)).2 (hself i)

end Instruction

end RiscvDialect

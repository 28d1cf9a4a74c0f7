import RiscvDialect.Proofs.Dictionary

/-!
# Widths

Assembly writes the value of an integer and leaves its width out, and a reader of assembly takes
every integer to have 64 bits. A program that has been through assembly is therefore the program
with its integers widened, and it is the same program only if they had 64 bits already.

## Main definitions

* `Op.widen`: an op with 64 bits for each of its integers
* `Op.IsWide`: an op whose integers have 64 bits

## Main statements

* `Op.attributes_widen`: widening changes the values of an op one by one
* `Op.widen_eq_self_iff`: what widening does not change
-/

namespace RiscvDialect

/-! ### Values -/

/-- The integer in 64 bits. -/
def SizedInt.widen (i : SizedInt) : SizedInt :=
  .full i.value

theorem SizedInt.widen_eq_self_iff {i : SizedInt} : i.widen = i ↔ i.width = 64 := by
  obtain ⟨value, width, hpos, hle⟩ := i
  simp [widen, full, eq_comm]

namespace Attribute

/-- The value in 64 bits, if it is an integer. -/
def widen : Attribute → Attribute
  | .integer i => .integer i.widen
  | value => value

/-- The value has 64 bits, if it is an integer. -/
def IsWide (value : Attribute) : Prop :=
  ∀ i, value = .integer i → i.width = 64

theorem widen_eq_self_iff {value : Attribute} : value.widen = value ↔ value.IsWide := by
  cases value <;> simp [widen, IsWide, SizedInt.widen_eq_self_iff]

theorem isWide_widen (value : Attribute) : value.widen.IsWide := by
  cases value <;> simp [widen, IsWide, SizedInt.widen, SizedInt.full]

end Attribute

/-! ### Operands -/

/-- The offset in 64 bits, if it is an integer. -/
def Offset.widen : Offset → Offset
  | .integer i => .integer i.widen
  | .label l => .label l

/-- The operand in 64 bits, if it is an integer. -/
def Operand.widen : Operand → Operand
  | .register r => .register r
  | .immediate i => .immediate i.widen
  | .offset o => .offset o.widen

theorem Operand.toAttribute_widen (operand : Operand) :
    operand.widen.toAttribute = operand.toAttribute.widen := by
  rcases operand with r | i | (i | l) <;> rfl

namespace Operands

/-- The operands with 64 bits for the integer among them. -/
def widen : Operands → Operands
  | .rdRs1Imm rd rs1 i => .rdRs1Imm rd rs1 i.widen
  | .rdRs1Off rd rs1 o => .rdRs1Off rd rs1 o.widen
  | .rs1Rs2Imm rs1 rs2 i => .rs1Rs2Imm rs1 rs2 i.widen
  | .rs1Rs2Off rs1 rs2 o => .rs1Rs2Off rs1 rs2 o.widen
  | .rdRs1Rs2 rd rs1 rs2 => .rdRs1Rs2 rd rs1 rs2
  | .rsRtOff rs rt o => .rsRtOff rs rt o.widen
  | .rdImm rd i => .rdImm rd i.widen
  | .rdOff rd o => .rdOff rd o.widen
  | .rsOff rs o => .rsOff rs o.widen
  | .rdRs rd rs => .rdRs rd rs
  | .noOperands => .noOperands

@[simp] theorem shape_widen (operands : Operands) : operands.widen.shape = operands.shape := by
  cases operands <;> rfl

/-- Widening goes slot by slot. -/
theorem toList_widen (operands : Operands) :
    operands.widen.toList = operands.toList.map fun (slot, operand) => (slot, operand.widen) := by
  cases operands <;> rfl

end Operands

/-! ### Ops -/

/-- The instruction with 64 bits for its integer. -/
def Instruction.widen (i : Instruction) : Instruction where
  opcode := i.opcode
  operands := i.operands.widen
  shape_operands := by rw [Operands.shape_widen, i.shape_operands]

theorem Instruction.attributes_widen (i : Instruction) :
    i.widen.attributes = i.attributes.map fun (key, value) => (key, value.widen) := by
  simp [attributes, Operands.attributes, widen, Operands.toList_widen, Operand.toAttribute_widen]

namespace Op

/-- The op with 64 bits for its integer, if it has one. Nothing else changes. -/
def widen : Op → Op
  | .instruction i => .instruction i.widen
  | op => op

/-- The integers that the op carries have 64 bits. -/
def IsWide (op : Op) : Prop :=
  ∀ entry ∈ op.attributes, entry.2.IsWide

@[simp] theorem kind_widen (op : Op) : op.widen.kind = op.kind := by
  cases op <;> rfl

theorem attributes_widen (op : Op) :
    op.widen.attributes = op.attributes.map fun (key, value) => (key, value.widen) := by
  cases op with
  | instruction i => exact i.attributes_widen
  | label => rfl
  | directive => rfl

theorem isWide_widen (op : Op) : op.widen.IsWide := by
  intro entry hentry
  rw [attributes_widen] at hentry
  obtain ⟨⟨key, value⟩, -, rfl⟩ := List.mem_map.1 hentry
  exact value.isWide_widen

/-- An op is known by its kind and its values, since it is built from them. -/
theorem eq_of_attributes {op op' : Op} (hkind : op.kind = op'.kind)
    (hattributes : op.attributes = op'.attributes) : op = op' := by
  have h := OpKind.build_eq_ok.2 ⟨rfl, List.Perm.refl op.attributes⟩
  have h' := OpKind.build_eq_ok.2 ⟨rfl, List.Perm.refl op'.attributes⟩
  rw [hkind, hattributes, h'] at h
  exact (Except.ok.inj h).symm

theorem widen_eq_self_iff {op : Op} : op.widen = op ↔ op.IsWide := by
  constructor
  · intro h
    rw [← h]
    exact op.isWide_widen
  · intro h
    refine eq_of_attributes op.kind_widen ?_
    rw [attributes_widen]
    refine (List.map_congr_left fun entry hentry => ?_).trans (List.map_id _)
    exact Prod.ext rfl (Attribute.widen_eq_self_iff.2 (h entry hentry))

end Op

namespace Program

/-- The program with 64 bits for each integer. -/
def widen (p : Program) : Program :=
  p.map Op.widen

theorem widen_eq_self_iff {p : Program} : p.widen = p ↔ ∀ op ∈ p, op.IsWide := by
  induction p with
  | nil => simp [widen]
  | cons op p ih =>
    rw [widen] at ih ⊢
    rw [List.map_cons, List.cons.injEq, ih, Op.widen_eq_self_iff, List.forall_mem_cons]

end Program

end RiscvDialect

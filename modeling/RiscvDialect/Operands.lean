import RiscvDialect.Attribute

/-!
# Operands

The operands of an instruction, one constructor for each shape. The constants are of any type, so
that one definition serves for finished operands and for operands as a caller gives them.

## Main definitions

* `OperandsWith`: operands with constants of given types, and `OperandsWith.shape`
* `Operands`: finished operands; `OperandSpecs`: operands as a caller gives them
* `Operands.toList`: the operands with their slots, in the order in which they are written
* `Operands.rd`, `Operands.sources`, `Operands.immediate`, `Operands.offset`: the operands by role
* `OperandsWith.build`: the operands of a shape from the operand of each slot
-/

namespace RiscvDialect

/-- The operands of an instruction, where immediates are of type `ι` and offsets of type `ω`. -/
inductive OperandsWith (ι ω : Type) where
  | rdRs1Imm (rd rs1 : Register) (immediate : ι)
  | rdRs1Off (rd rs1 : Register) (offset : ω)
  | rs1Rs2Imm (rs1 rs2 : Register) (immediate : ι)
  | rs1Rs2Off (rs1 rs2 : Register) (offset : ω)
  | rdRs1Rs2 (rd rs1 rs2 : Register)
  | rsRtOff (rs rt : Register) (offset : ω)
  | rdImm (rd : Register) (immediate : ι)
  | rdOff (rd : Register) (offset : ω)
  | rsOff (rs : Register) (offset : ω)
  | rdRs (rd rs : Register)
  | noOperands
  deriving DecidableEq, Repr

/-- Finished operands. -/
abbrev Operands := OperandsWith SizedInt Offset

namespace OperandsWith

variable {ι ω κ ψ ε : Type}

/-- The shape of some operands. -/
def shape : OperandsWith ι ω → Shape
  | .rdRs1Imm .. => .rdRs1Imm
  | .rdRs1Off .. => .rdRs1Off
  | .rs1Rs2Imm .. => .rs1Rs2Imm
  | .rs1Rs2Off .. => .rs1Rs2Off
  | .rdRs1Rs2 .. => .rdRs1Rs2
  | .rsRtOff .. => .rsRtOff
  | .rdImm .. => .rdImm
  | .rdOff .. => .rdOff
  | .rsOff .. => .rsOff
  | .rdRs .. => .rdRs
  | .noOperands => .noOperands

/-- The operands of a shape from what each of its slots holds. The slots are asked in the order in
which operands are written, and the first refusal is the answer. -/
def build (register : Slot → Except ε Register) (immediate : Slot → Except ε ι)
    (offset : Slot → Except ε ω) (shape : Shape) :
    Except ε { operands : OperandsWith ι ω // operands.shape = shape } :=
  match shape with
  | .rdRs1Imm => do
    return ⟨.rdRs1Imm (← register .rd) (← register .rs1) (← immediate .immediate), rfl⟩
  | .rdRs1Off => do
    return ⟨.rdRs1Off (← register .rd) (← register .rs1) (← offset .offset), rfl⟩
  | .rs1Rs2Imm => do
    return ⟨.rs1Rs2Imm (← register .rs1) (← register .rs2) (← immediate .immediate), rfl⟩
  | .rs1Rs2Off => do
    return ⟨.rs1Rs2Off (← register .rs1) (← register .rs2) (← offset .offset), rfl⟩
  | .rdRs1Rs2 => do
    return ⟨.rdRs1Rs2 (← register .rd) (← register .rs1) (← register .rs2), rfl⟩
  | .rsRtOff => do
    return ⟨.rsRtOff (← register .rs) (← register .rt) (← offset .offset), rfl⟩
  | .rdImm => do return ⟨.rdImm (← register .rd) (← immediate .immediate), rfl⟩
  | .rdOff => do return ⟨.rdOff (← register .rd) (← offset .offset), rfl⟩
  | .rsOff => do return ⟨.rsOff (← register .rs) (← offset .offset), rfl⟩
  | .rdRs => do return ⟨.rdRs (← register .rd) (← register .rs), rfl⟩
  | .noOperands => return ⟨.noOperands, rfl⟩

/-- The same registers with other constants. -/
def mapConstants (immediate : ι → Except ε κ) (offset : ω → Except ε ψ) :
    OperandsWith ι ω → Except ε (OperandsWith κ ψ)
  | .rdRs1Imm rd rs1 i => return .rdRs1Imm rd rs1 (← immediate i)
  | .rdRs1Off rd rs1 o => return .rdRs1Off rd rs1 (← offset o)
  | .rs1Rs2Imm rs1 rs2 i => return .rs1Rs2Imm rs1 rs2 (← immediate i)
  | .rs1Rs2Off rs1 rs2 o => return .rs1Rs2Off rs1 rs2 (← offset o)
  | .rdRs1Rs2 rd rs1 rs2 => return .rdRs1Rs2 rd rs1 rs2
  | .rsRtOff rs rt o => return .rsRtOff rs rt (← offset o)
  | .rdImm rd i => return .rdImm rd (← immediate i)
  | .rdOff rd o => return .rdOff rd (← offset o)
  | .rsOff rs o => return .rsOff rs (← offset o)
  | .rdRs rd rs => return .rdRs rd rs
  | .noOperands => return .noOperands

/-- Other constants leave the shape as it is. -/
theorem shape_mapConstants {immediate : ι → Except ε κ} {offset : ω → Except ε ψ}
    {operands : OperandsWith ι ω} {result : OperandsWith κ ψ}
    (h : operands.mapConstants immediate offset = .ok result) : result.shape = operands.shape := by
  cases operands <;>
    simp only [mapConstants, Except.bind_eq_ok, pure, Except.pure, Except.ok.injEq] at h <;>
    grind [shape]

end OperandsWith

/-! ### Operands one by one -/

/-- What a slot holds. -/
inductive Operand where
  | register (r : Register)
  | immediate (i : SizedInt)
  | offset (o : Offset)
  deriving DecidableEq, Repr

/-- An operand as a value of its op. -/
def Operand.toAttribute : Operand → Attribute
  | .register r => .register r
  | .immediate i => .integer i
  | .offset o => o.toAttribute

namespace Operands

/-- The operands with their slots, in the order in which they are written. -/
def toList : Operands → List (Slot × Operand)
  | .rdRs1Imm rd rs1 i => [(.rd, .register rd), (.rs1, .register rs1), (.immediate, .immediate i)]
  | .rdRs1Off rd rs1 o => [(.rd, .register rd), (.rs1, .register rs1), (.offset, .offset o)]
  | .rs1Rs2Imm rs1 rs2 i =>
    [(.rs1, .register rs1), (.rs2, .register rs2), (.immediate, .immediate i)]
  | .rs1Rs2Off rs1 rs2 o => [(.rs1, .register rs1), (.rs2, .register rs2), (.offset, .offset o)]
  | .rdRs1Rs2 rd rs1 rs2 => [(.rd, .register rd), (.rs1, .register rs1), (.rs2, .register rs2)]
  | .rsRtOff rs rt o => [(.rs, .register rs), (.rt, .register rt), (.offset, .offset o)]
  | .rdImm rd i => [(.rd, .register rd), (.immediate, .immediate i)]
  | .rdOff rd o => [(.rd, .register rd), (.offset, .offset o)]
  | .rsOff rs o => [(.rs, .register rs), (.offset, .offset o)]
  | .rdRs rd rs => [(.rd, .register rd), (.rs, .register rs)]
  | .noOperands => []

/-- The values of the operands by slot. -/
def attributes (operands : Operands) : List (Slot × Attribute) :=
  operands.toList.map fun (slot, operand) => (slot, operand.toAttribute)

/-- The register written to. -/
def rd : Operands → Option Register
  | .rdRs1Imm rd .. | .rdRs1Off rd .. | .rdRs1Rs2 rd .. | .rdImm rd _ | .rdOff rd _
  | .rdRs rd _ => some rd
  | _ => none

/-- The registers read, in the order of their slots. -/
def sources : Operands → List Register
  | .rdRs1Imm _ rs1 _ | .rdRs1Off _ rs1 _ => [rs1]
  | .rs1Rs2Imm rs1 rs2 _ | .rs1Rs2Off rs1 rs2 _ | .rdRs1Rs2 _ rs1 rs2 => [rs1, rs2]
  | .rsRtOff rs rt _ => [rs, rt]
  | .rsOff rs _ | .rdRs _ rs => [rs]
  | .rdImm .. | .rdOff .. | .noOperands => []

/-- The constant, if it is an immediate. -/
def immediate : Operands → Option SizedInt
  | .rdRs1Imm _ _ i | .rs1Rs2Imm _ _ i | .rdImm _ i => some i
  | _ => none

/-- The constant, if it is an offset. -/
def offset : Operands → Option Offset
  | .rdRs1Off _ _ o | .rs1Rs2Off _ _ o | .rsRtOff _ _ o | .rdOff _ o | .rsOff _ o => some o
  | _ => none

/-- The slots of some operands are those of their shape. -/
@[simp] theorem map_fst_toList (operands : Operands) :
    operands.toList.map Prod.fst = operands.shape.slots := by
  cases operands <;> rfl

end Operands

/-! ### Operands as a caller gives them -/

/-- An immediate as a caller gives it. -/
inductive ImmediateSpec where
  /-- A number, meant in full width. -/
  | value (v : Int64)
  /-- An integer with its width. -/
  | sized (i : SizedInt)

/-- The immediate that was meant. -/
def ImmediateSpec.resolve : ImmediateSpec → SizedInt
  | .value v => .full v
  | .sized i => i

/-- An offset as a caller gives it. -/
inductive OffsetSpec where
  /-- A number, meant in full width. -/
  | value (v : Int64)
  /-- The text of a label, not yet checked. -/
  | labelText (text : String)
  /-- A finished offset. -/
  | offset (o : Offset)

/-- The offset that was meant. -/
def OffsetSpec.resolve : OffsetSpec → Except DialectError Offset
  | .value v => .ok (.integer (.full v))
  | .labelText text => Offset.label <$> Label.ofName text
  | .offset o => .ok o

/-- Operands as a caller gives them. -/
abbrev OperandSpecs := OperandsWith ImmediateSpec OffsetSpec

namespace OperandSpecs

/-- The operands that were meant. -/
def resolve (specs : OperandSpecs) : Except DialectError Operands :=
  specs.mapConstants (fun i => .ok i.resolve) OffsetSpec.resolve

/-- The offset as given, if the constant is an offset. -/
def offset : OperandSpecs → Option OffsetSpec
  | .rdRs1Off _ _ o | .rs1Rs2Off _ _ o | .rsRtOff _ _ o | .rdOff _ o | .rsOff _ o => some o
  | _ => none

/-- The operands meant are of the shape that was given. -/
theorem shape_resolve {specs : OperandSpecs} {operands : Operands}
    (h : specs.resolve = .ok operands) : operands.shape = specs.shape :=
  OperandsWith.shape_mapConstants h

end OperandSpecs

end RiscvDialect

/-!
# Slots and shapes

An instruction takes its operands in named slots, and the slots of an instruction form one of
eleven shapes.

## Main definitions

* `AttributeKind`: the kinds of values that ops carry
* `SlotKind`: the kinds of operands, and which values they accept
* `Slot`, `Shape`: the named slots, and the sequences of them that occur

## Main statements

* `Shape.nodup_slots`: no shape has a slot twice
-/

namespace RiscvDialect

/-! ### Kinds -/

/-- The kinds of values that ops carry. -/
inductive AttributeKind where
  | register
  | label
  | integer
  | string
  deriving DecidableEq, Repr

namespace AttributeKind

/-- All kinds of values. -/
def all : List AttributeKind := [.register, .label, .integer, .string]

/-- The kind with its article, as messages name it. -/
def describe : AttributeKind → String
  | .register => "a register"
  | .label => "a label"
  | .integer => "an integer"
  | .string => "a string"

end AttributeKind

/-- The kinds of operands. -/
inductive SlotKind where
  | register
  | immediate
  | offset
  deriving DecidableEq, Repr

namespace SlotKind

/-- The operands accepted, as messages name them. -/
def describe : SlotKind → String
  | .register => "a register"
  | .immediate => "an integer"
  | .offset => "an integer or a label"

/-- Whether a value of the given kind can be such an operand. -/
def accepts : SlotKind → AttributeKind → Bool
  | .register, .register => true
  | .immediate, .integer => true
  | .offset, .integer => true
  | .offset, .label => true
  | _, _ => false

end SlotKind

/-! ### Slots -/

/-- The operand slots of instructions: a destination, the sources under either naming, and a
constant. -/
inductive Slot where
  | rd
  | rs
  | rt
  | rs1
  | rs2
  | immediate
  | offset
  deriving DecidableEq, Repr

namespace Slot

/-- The key under which the operand stands in a dictionary. -/
def name : Slot → String
  | .rd => "rd"
  | .rs => "rs"
  | .rt => "rt"
  | .rs1 => "rs1"
  | .rs2 => "rs2"
  | .immediate => "immediate"
  | .offset => "offset"

/-- What the slot takes. -/
def kind : Slot → SlotKind
  | .immediate => .immediate
  | .offset => .offset
  | _ => .register

end Slot

/-! ### Shapes -/

/-- The operand shapes of instructions, each named for its slots. -/
inductive Shape where
  | rdRs1Imm
  | rdRs1Off
  | rs1Rs2Imm
  | rs1Rs2Off
  | rdRs1Rs2
  | rsRtOff
  | rdImm
  | rdOff
  | rsOff
  | rdRs
  | noOperands
  deriving DecidableEq, Repr

namespace Shape

/-- All shapes. -/
def all : List Shape :=
  [.rdRs1Imm, .rdRs1Off, .rs1Rs2Imm, .rs1Rs2Off, .rdRs1Rs2, .rsRtOff, .rdImm, .rdOff, .rsOff,
    .rdRs, .noOperands]

/-- The name of a shape. -/
def name : Shape → String
  | .rdRs1Imm => "RdRs1Imm"
  | .rdRs1Off => "RdRs1Off"
  | .rs1Rs2Imm => "Rs1Rs2Imm"
  | .rs1Rs2Off => "Rs1Rs2Off"
  | .rdRs1Rs2 => "RdRs1Rs2"
  | .rsRtOff => "RsRtOff"
  | .rdImm => "RdImm"
  | .rdOff => "RdOff"
  | .rsOff => "RsOff"
  | .rdRs => "RdRs"
  | .noOperands => "NoOperands"

/-- The slots of a shape, in the order in which operands are written. -/
def slots : Shape → List Slot
  | .rdRs1Imm => [.rd, .rs1, .immediate]
  | .rdRs1Off => [.rd, .rs1, .offset]
  | .rs1Rs2Imm => [.rs1, .rs2, .immediate]
  | .rs1Rs2Off => [.rs1, .rs2, .offset]
  | .rdRs1Rs2 => [.rd, .rs1, .rs2]
  | .rsRtOff => [.rs, .rt, .offset]
  | .rdImm => [.rd, .immediate]
  | .rdOff => [.rd, .offset]
  | .rsOff => [.rs, .offset]
  | .rdRs => [.rd, .rs]
  | .noOperands => []

/-- The number of operands. -/
def arity (shape : Shape) : Nat :=
  shape.slots.length

/-- The slot of a shape with the given name. -/
def slot? (shape : Shape) (name : String) : Option Slot :=
  shape.slots.find? (·.name == name)

theorem nodup_slots (shape : Shape) : shape.slots.Nodup := by
  cases shape <;> decide

end Shape

end RiscvDialect

import RiscvDialect.Dictionary
import RiscvDialect.Operands

/-!
# Instructions

An instruction is an opcode with operands of the opcode's shape.

## Main definitions

* `Instruction`: an opcode and its operands
* `Instruction.ofOperands`: from finished operands
* `Instruction.ofSpecs`: from operands as a caller gives them
* `Instruction.construct`: the same where the shapes are known to agree
* `Instruction.ofDictionary`: from keyed values
-/

namespace RiscvDialect

/-- An instruction with its operands. -/
structure Instruction where
  /-- What to do. -/
  opcode : Opcode
  /-- What to do it with. -/
  operands : Operands
  shape_operands : operands.shape = opcode.shape
  deriving DecidableEq, Repr

namespace Instruction

/-- The name of an instruction as an op. -/
def name (i : Instruction) : String :=
  i.opcode.name

/-- The values of the operands by key. -/
def attributes (i : Instruction) : Dictionary :=
  i.operands.attributes.map fun (slot, value) => (slot.name, value)

/-- The instruction with the given operands, which must be of its shape. -/
def ofOperands (opcode : Opcode) (operands : Operands) : Except DialectError Instruction :=
  if h : operands.shape = opcode.shape then .ok ⟨opcode, operands, h⟩
  else .error (.shapeMismatch opcode operands.shape)

/-- The instruction with the operands that a caller meant. -/
def ofSpecs (opcode : Opcode) (specs : OperandSpecs) : Except DialectError Instruction := do
  ofOperands opcode (← specs.resolve)

/-- The instruction with the operands that a caller meant, who gives operands of the right shape. No
check of the shape is left; what may fail is the label. -/
def construct (opcode : Opcode) (specs : OperandSpecs) (h : specs.shape = opcode.shape) :
    Except DialectError Instruction :=
  match hoperands : specs.resolve with
  | .ok operands => .ok ⟨opcode, operands, (OperandSpecs.shape_resolve hoperands).trans h⟩
  | .error e => .error e

/-- The instruction with operands taken from a dictionary. The keys are checked first; then the
slots are filled one after the other. -/
def ofDictionary (opcode : Opcode) (entries : Dictionary) : Except DialectError Instruction := do
  let op := opcode.name
  entries.checkKeys op (opcode.shape.slots.map Slot.name)
  let filled ← OperandsWith.build
    (fun slot => do (← entries.require op slot.name).toRegister op slot.name)
    (fun slot => do (← entries.require op slot.name).toInteger op slot.name)
    (fun slot => do Offset.ofAttribute (← entries.require op slot.name))
    opcode.shape
  return ⟨opcode, filled.val, filled.property⟩

@[simp] theorem ofOperands_operands (i : Instruction) : ofOperands i.opcode i.operands = .ok i := by
  simp [ofOperands, i.shape_operands]

end Instruction

end RiscvDialect

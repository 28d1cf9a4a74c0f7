import RiscvDialect.Directive
import RiscvDialect.Instruction

/-!
# Ops and programs

A program is a sequence of ops: instructions, the labels between them, and directives to the
assembler.

## Main definitions

* `Op`: an instruction, a label or a directive
* `OpKind`: what an op with a given name is, and `OpKind.build`, the op from a dictionary
* `Program`: a sequence of ops
-/

namespace RiscvDialect

/-! ### Labels as ops -/

namespace Label

/-- The name of labels as ops. -/
def opName : String := "riscv.label"

/-- The label by key. -/
def attributes (l : Label) : Dictionary :=
  [("label", .label l)]

/-- The label in a dictionary. -/
def ofDictionary (entries : Dictionary) : Except DialectError Label := do
  entries.checkKeys opName ["label"]
  (← entries.require opName "label").toLabel opName "label"

end Label

/-! ### Ops -/

/-- One step of a program. -/
inductive Op where
  | instruction (i : Instruction)
  | label (l : Label)
  | directive (d : Directive)
  deriving DecidableEq, Repr

namespace Op

/-- The name of an op. -/
def name : Op → String
  | .instruction i => i.name
  | .label _ => Label.opName
  | .directive _ => Directive.opName

/-- The values that an op carries, by key. -/
def attributes : Op → Dictionary
  | .instruction i => i.attributes
  | .label l => l.attributes
  | .directive d => d.attributes

/-- The instruction that an op is. -/
def instruction? : Op → Option Instruction
  | .instruction i => some i
  | _ => none

/-- The label that an op is. -/
def label? : Op → Option Label
  | .label l => some l
  | _ => none

end Op

/-- What an op with a given name is. -/
inductive OpKind where
  | instruction (opcode : Opcode)
  | label
  | directive
  deriving DecidableEq, Repr

/-- The op of a kind with the values in a dictionary. -/
def OpKind.build : OpKind → Dictionary → Except DialectError Op
  | .instruction opcode, entries => Op.instruction <$> Instruction.ofDictionary opcode entries
  | .label, entries => Op.label <$> Label.ofDictionary entries
  | .directive, entries => Op.directive <$> Directive.ofDictionary entries

/-! ### Programs -/

/-- A sequence of ops. -/
abbrev Program := List Op

namespace Program

/-- The instructions of a program. -/
def instructions (p : Program) : List Instruction :=
  p.filterMap Op.instruction?

/-- The labels that a program defines, repetitions included. -/
def labels (p : Program) : List Label :=
  p.filterMap Op.label?

end Program

end RiscvDialect

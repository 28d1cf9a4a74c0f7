import RiscvDialect.Program

/-!
# Writing assembly

One statement on each line. Labels and directives start their line; instructions are indented.
Loads and stores write their address as a displacement before the base register in parentheses,
after the register that is loaded or stored.

## Main definitions

* `AssemblyStyle`: what a writer may choose
* `Op.statement`: the statement of an op
* `Program.assembly`: the text of a program
-/

namespace RiscvDialect

/-- How registers are written. -/
inductive RegisterStyle where
  /-- By their names from the calling convention. -/
  | abi
  /-- By their numbers. -/
  | numeric
  deriving DecidableEq, Repr

/-- A register as the style writes it. -/
def RegisterStyle.write : RegisterStyle → Register → String
  | .abi, r => r.abiName
  | .numeric, r => r.numericName

/-- What a writer of assembly may choose. -/
structure AssemblyStyle where
  /-- What stands before an instruction. -/
  indent : String := "\t"
  /-- How registers are written. -/
  registers : RegisterStyle := .abi
  deriving DecidableEq, Repr

/-- An offset in assembly: its number, without the width, or its label. -/
def Offset.assembly : Offset → String
  | .integer i => toString i.value.toInt
  | .label l => l.name

/-- An operand in assembly. -/
def Operand.assembly (style : RegisterStyle) : Operand → String
  | .register r => style.write r
  | .immediate i => toString i.value.toInt
  | .offset o => o.assembly

namespace Instruction

/-- An address in assembly: a displacement and a base register. -/
def addressText (style : RegisterStyle) (displacement : SizedInt) (base : Register) : String :=
  toString displacement.value.toInt ++ "(" ++ style.write base ++ ")"

/-- The operands in assembly. Loads share their shape with other instructions, stores do not. -/
def operandTexts (style : RegisterStyle) (i : Instruction) : List String :=
  match i.operands with
  | .rdRs1Imm rd rs1 immediate =>
    if i.opcode.isMemory then [style.write rd, addressText style immediate rs1]
    else [style.write rd, style.write rs1, toString immediate.value.toInt]
  | .rs1Rs2Imm rs1 rs2 immediate => [style.write rs2, addressText style immediate rs1]
  | operands => operands.toList.map fun (_, operand) => operand.assembly style

/-- The statement of an instruction, without indentation. -/
def statement (style : RegisterStyle) (i : Instruction) : String :=
  match i.operandTexts style with
  | [] => i.opcode.mnemonic
  | texts => i.opcode.mnemonic ++ " " ++ ", ".intercalate texts

end Instruction

/-- The statement of a directive. An empty value is left out. -/
def Directive.statement (d : Directive) : String :=
  if d.value.isEmpty then "." ++ d.name else "." ++ d.name ++ " " ++ d.value

/-- The statement of an op. -/
def Op.statement (style : AssemblyStyle) : Op → String
  | .instruction i => style.indent ++ i.statement style.registers
  | .label l => l.name ++ ":"
  | .directive d => d.statement

/-- The text of a program, with a newline after each statement. -/
def Program.assembly (style : AssemblyStyle) (p : Program) : String :=
  String.join (p.map fun op => op.statement style ++ "\n")

end RiscvDialect

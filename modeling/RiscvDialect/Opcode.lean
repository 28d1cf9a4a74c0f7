import RiscvDialect.Shape

/-!
# The instruction catalog

Every instruction of the dialect with its mnemonic, its operand shape and its category. The order
of the catalog is the order of the opcodes.

## Main definitions

* `Opcode`: the instructions, and `Opcode.all`, all of them in order
* `Opcode.entry`: the catalog
* `Opcode.ofMnemonic?`, `Opcode.ofName?`: look an instruction up by either of its names

The name of an instruction is its mnemonic in the namespace of the dialect. One further mnemonic is
read as an alias.
-/

namespace RiscvDialect

/-- What an instruction does, roughly. -/
inductive Category where
  | load
  | store
  | branch
  | shift
  | arithmetic
  | logical
  | compare
  | jump
  | system
  | mulDiv
  | pseudo
  deriving DecidableEq, Repr

/-- The name of a category. -/
def Category.name : Category → String
  | .load => "Load"
  | .store => "Store"
  | .branch => "Branch"
  | .shift => "Shift"
  | .arithmetic => "Arithmetic"
  | .logical => "Logical"
  | .compare => "Compare"
  | .jump => "Jump"
  | .system => "System"
  | .mulDiv => "MulDiv"
  | .pseudo => "Pseudo"

/-- The instructions of the dialect, in the order of the catalog. -/
inductive Opcode where
  | lb | lbu | lh | lhu | lw
  | sb | sh | sw
  | beq | bne | blt | bge | bltu | bgeu
  | sll | slli | srl | srli | sra | srai
  | add | addi | sub | lui | auipc
  | xor | xori | or | ori | and | andi
  | slt | slti | sltu | sltiu
  | jal | jalr
  | ecall | ebreak | scall | sbreak
  | mul | mulh | mulhsu | mulhu | div | divu | rem | remu
  | nop | li | mv | not | neg | negw | seqz | snez | sltz | sgtz | beqz | bnez | blez | bgez
  | bltz | bgtz | bgt | ble | bgtu | bleu | ret
  deriving DecidableEq, Repr

namespace Opcode

/-- What the catalog records of an instruction. -/
structure Entry where
  /-- The instruction as assembly writes it. -/
  mnemonic : String
  /-- The shape of its operands. -/
  shape : Shape
  /-- What it does, roughly. -/
  category : Category

/-- The catalog. -/
def entry : Opcode → Entry
  | .lb => ⟨"lb", .rdRs1Imm, .load⟩
  | .lbu => ⟨"lbu", .rdRs1Imm, .load⟩
  | .lh => ⟨"lh", .rdRs1Imm, .load⟩
  | .lhu => ⟨"lhu", .rdRs1Imm, .load⟩
  | .lw => ⟨"lw", .rdRs1Imm, .load⟩
  | .sb => ⟨"sb", .rs1Rs2Imm, .store⟩
  | .sh => ⟨"sh", .rs1Rs2Imm, .store⟩
  | .sw => ⟨"sw", .rs1Rs2Imm, .store⟩
  | .beq => ⟨"beq", .rs1Rs2Off, .branch⟩
  | .bne => ⟨"bne", .rs1Rs2Off, .branch⟩
  | .blt => ⟨"blt", .rs1Rs2Off, .branch⟩
  | .bge => ⟨"bge", .rs1Rs2Off, .branch⟩
  | .bltu => ⟨"bltu", .rs1Rs2Off, .branch⟩
  | .bgeu => ⟨"bgeu", .rs1Rs2Off, .branch⟩
  | .sll => ⟨"sll", .rdRs1Rs2, .shift⟩
  | .slli => ⟨"slli", .rdRs1Imm, .shift⟩
  | .srl => ⟨"srl", .rdRs1Rs2, .shift⟩
  | .srli => ⟨"srli", .rdRs1Imm, .shift⟩
  | .sra => ⟨"sra", .rdRs1Rs2, .shift⟩
  | .srai => ⟨"srai", .rdRs1Imm, .shift⟩
  | .add => ⟨"add", .rdRs1Rs2, .arithmetic⟩
  | .addi => ⟨"addi", .rdRs1Imm, .arithmetic⟩
  | .sub => ⟨"sub", .rdRs1Rs2, .arithmetic⟩
  | .lui => ⟨"lui", .rdImm, .arithmetic⟩
  | .auipc => ⟨"auipc", .rdImm, .arithmetic⟩
  | .xor => ⟨"xor", .rdRs1Rs2, .logical⟩
  | .xori => ⟨"xori", .rdRs1Imm, .logical⟩
  | .or => ⟨"or", .rdRs1Rs2, .logical⟩
  | .ori => ⟨"ori", .rdRs1Imm, .logical⟩
  | .and => ⟨"and", .rdRs1Rs2, .logical⟩
  | .andi => ⟨"andi", .rdRs1Imm, .logical⟩
  | .slt => ⟨"slt", .rdRs1Rs2, .compare⟩
  | .slti => ⟨"slti", .rdRs1Imm, .compare⟩
  | .sltu => ⟨"sltu", .rdRs1Rs2, .compare⟩
  | .sltiu => ⟨"sltiu", .rdRs1Imm, .compare⟩
  | .jal => ⟨"jal", .rdOff, .jump⟩
  | .jalr => ⟨"jalr", .rdRs1Off, .jump⟩
  | .ecall => ⟨"ecall", .noOperands, .system⟩
  | .ebreak => ⟨"ebreak", .noOperands, .system⟩
  | .scall => ⟨"scall", .noOperands, .system⟩
  | .sbreak => ⟨"sbreak", .noOperands, .system⟩
  | .mul => ⟨"mul", .rdRs1Rs2, .mulDiv⟩
  | .mulh => ⟨"mulh", .rdRs1Rs2, .mulDiv⟩
  | .mulhsu => ⟨"mulhsu", .rdRs1Rs2, .mulDiv⟩
  | .mulhu => ⟨"mulhu", .rdRs1Rs2, .mulDiv⟩
  | .div => ⟨"div", .rdRs1Rs2, .mulDiv⟩
  | .divu => ⟨"divu", .rdRs1Rs2, .mulDiv⟩
  | .rem => ⟨"rem", .rdRs1Rs2, .mulDiv⟩
  | .remu => ⟨"remu", .rdRs1Rs2, .mulDiv⟩
  | .nop => ⟨"nop", .noOperands, .pseudo⟩
  | .li => ⟨"li", .rdImm, .pseudo⟩
  | .mv => ⟨"mv", .rdRs, .pseudo⟩
  | .not => ⟨"not", .rdRs, .pseudo⟩
  | .neg => ⟨"neg", .rdRs, .pseudo⟩
  | .negw => ⟨"negw", .rdRs, .pseudo⟩
  | .seqz => ⟨"seqz", .rdRs, .pseudo⟩
  | .snez => ⟨"snez", .rdRs, .pseudo⟩
  | .sltz => ⟨"sltz", .rdRs, .pseudo⟩
  | .sgtz => ⟨"sgtz", .rdRs, .pseudo⟩
  | .beqz => ⟨"beqz", .rsOff, .pseudo⟩
  | .bnez => ⟨"bnez", .rsOff, .pseudo⟩
  | .blez => ⟨"blez", .rsOff, .pseudo⟩
  | .bgez => ⟨"bgez", .rsOff, .pseudo⟩
  | .bltz => ⟨"bltz", .rsOff, .pseudo⟩
  | .bgtz => ⟨"bgtz", .rsOff, .pseudo⟩
  | .bgt => ⟨"bgt", .rsRtOff, .pseudo⟩
  | .ble => ⟨"ble", .rsRtOff, .pseudo⟩
  | .bgtu => ⟨"bgtu", .rsRtOff, .pseudo⟩
  | .bleu => ⟨"bleu", .rsRtOff, .pseudo⟩
  | .ret => ⟨"ret", .noOperands, .pseudo⟩

/-- All instructions, in the order of the catalog. -/
def all : List Opcode :=
  [.lb, .lbu, .lh, .lhu, .lw,
    .sb, .sh, .sw,
    .beq, .bne, .blt, .bge, .bltu, .bgeu,
    .sll, .slli, .srl, .srli, .sra, .srai,
    .add, .addi, .sub, .lui, .auipc,
    .xor, .xori, .or, .ori, .and, .andi,
    .slt, .slti, .sltu, .sltiu,
    .jal, .jalr,
    .ecall, .ebreak, .scall, .sbreak,
    .mul, .mulh, .mulhsu, .mulhu, .div, .divu, .rem, .remu,
    .nop, .li, .mv, .not, .neg, .negw, .seqz, .snez, .sltz, .sgtz, .beqz, .bnez, .blez, .bgez,
    .bltz, .bgtz, .bgt, .ble, .bgtu, .bleu, .ret]

/-- The instruction as assembly writes it. -/
def mnemonic (opcode : Opcode) : String :=
  opcode.entry.mnemonic

/-- The shape of the operands of an instruction. -/
def shape (opcode : Opcode) : Shape :=
  opcode.entry.shape

/-- What an instruction does, roughly. -/
def category (opcode : Opcode) : Category :=
  opcode.entry.category

/-- What the names of the dialect's ops start with. -/
def dialectStem : String := "riscv."

/-- The name of an instruction as an op. -/
def name (opcode : Opcode) : String :=
  dialectStem ++ opcode.mnemonic

/-- Whether an instruction stands for others of the base instruction set. -/
def isPseudo (opcode : Opcode) : Bool :=
  opcode.category == .pseudo

/-- Whether an instruction loads or stores, so that assembly writes a base register with a
displacement. -/
def isMemory (opcode : Opcode) : Bool :=
  opcode.category == .load || opcode.category == .store

/-! ### Looking an instruction up -/

/-- Further names of ops, with the instructions that they mean. -/
def aliases : List (String × Opcode) := [("riscv.sltui", .sltiu)]

/-- The instruction that a mnemonic means. -/
def ofMnemonic? (mnemonic : String) : Option Opcode :=
  match all.find? (·.mnemonic == mnemonic) with
  | some opcode => some opcode
  | none => aliases.lookup (dialectStem ++ mnemonic)

/-- The instruction that the name of an op means. -/
def ofName? (name : String) : Option Opcode :=
  (dialectStem.toList.isPrefixOf? name.toList).bind fun rest => ofMnemonic? (String.ofList rest)

/-- The place of an instruction in the catalog. -/
def index (opcode : Opcode) : Nat :=
  all.idxOf opcode

theorem mem_all (opcode : Opcode) : opcode ∈ all := by
  cases opcode <;> decide

end Opcode

end RiscvDialect

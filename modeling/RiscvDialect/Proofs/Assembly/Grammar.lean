import RiscvDialect.Assembly.Parser
import RiscvDialect.Proofs.Register

/-!
# The grammar of statements in assembly

What a statement of assembly is, without a reader: relations between a text and what the whole of it
means. A statement stands alone on its line, so nothing is ever left after it. Nothing here is
greedy, except that the first symbol of a statement must be as long as it can be.

Statements come in four forms, which share their first characters: a dot starts labels as well as
directives, and every mnemonic could be a label. Two things keep the forms apart. A colon behind the
first symbol is left to labels, and a parenthesis among the operands of loads and stores to
addresses.

## Main definitions

* `LiteralText`, `IntegerText`: integers of any size, and those of 64 bits
* `OperandText`: single operands
* `PlainText`, `AddressText`: the operands of an instruction, in either form
* `Form`, `StatementText`: statements, by their forms
-/

namespace RiscvDialect.Assembly.Grammar

open Text

/-! ### Between the tokens -/

/-- Spaces and tabs, any number of them. -/
def Inline (space : List Char) : Prop :=
  ∀ c ∈ space, isInlineSpace c

/-- A comma with any spaces and tabs around it. -/
inductive CommaText : List Char → Prop where
  | spaced {before after : List Char} (hbefore : Inline before) (hafter : Inline after) :
    CommaText (before ++ ',' :: after)

/-- A colon comes next, maybe after spaces and tabs. -/
def ColonFollows (text : List Char) : Prop :=
  ∃ space rest, Inline space ∧ text = space ++ ':' :: rest

/-- The text starts with a symbol and a colon behind it. -/
def BeginsLabel (text : List Char) : Prop :=
  ∃ name rest, isSymbol name ∧ text = name ++ rest ∧ ColonFollows rest

/-! ### Single operands -/

/-- Decimal digits, or hexadecimal ones behind `0x`; at least one, with any number of leading
zeros. -/
inductive NumeralText : List Char → Nat → Prop where
  | decimal {digits : List Char} (hne : digits ≠ []) (hdigits : ∀ c ∈ digits, c.isDigit) :
    NumeralText digits (Numeral.ofDecimalDigits digits)
  | hexadecimal {x : Char} {digits : List Char} (hx : x = 'x' ∨ x = 'X') (hne : digits ≠ [])
    (hdigits : ∀ c ∈ digits, Numeral.isHexDigit c) :
    NumeralText ('0' :: x :: digits) (Numeral.ofHexDigits digits)

/-- A numeral, after a minus sign or not, of any value. -/
inductive LiteralText : List Char → Int → Prop where
  | nonneg {text : List Char} {n : Nat} (h : NumeralText text n) : LiteralText text n
  | neg {text : List Char} {n : Nat} (h : NumeralText text n) : LiteralText ('-' :: text) (-n)

/-- A numeral, after a minus sign or not, whose value is a 64-bit integer. -/
inductive IntegerText : List Char → Int64 → Prop where
  | nonneg {text : List Char} {n : Nat} {value : Int64} (h : NumeralText text n)
    (hvalue : value.toInt = n) : IntegerText text value
  | neg {text : List Char} {n : Nat} {value : Int64} (h : NumeralText text n)
    (hvalue : value.toInt = -n) : IntegerText ('-' :: text) value

/-- An operand for a slot of some kind: any name of a register, an integer, and for offsets an
integer or a symbol. All integers have 64 bits. -/
inductive OperandText : SlotKind → List Char → Operand → Prop where
  | register {name : String} {r : Register} (h : Register.Named name r) :
    OperandText .register name.toList (.register r)
  | immediate {text : List Char} {value : Int64} (h : IntegerText text value) :
    OperandText .immediate text (.immediate (.full value))
  | number {text : List Char} {value : Int64} (h : IntegerText text value) :
    OperandText .offset text (.offset (.integer (.full value)))
  | label (l : Label) : OperandText .offset l.name.toList (.offset (.label l))

/-! ### Operands of instructions -/

/-- The operands of some slots, in their order, with a comma between any two. -/
inductive PlainText : List Slot → List Char → List (Slot × Operand) → Prop where
  | none : PlainText [] [] []
  | last {slot : Slot} {text : List Char} {operand : Operand}
    (h : OperandText slot.kind text operand) : PlainText [slot] text [(slot, operand)]
  | more {slot next : Slot} {slots : List Slot} {text comma later : List Char} {operand : Operand}
    {filled : List (Slot × Operand)} (h : OperandText slot.kind text operand)
    (hcomma : CommaText comma) (hlater : PlainText (next :: slots) later filled) :
    PlainText (slot :: next :: slots) (text ++ (comma ++ later)) ((slot, operand) :: filled)

/-- A displacement, which may be left out and is zero then. -/
inductive DisplacementText : List Char → Int64 → Prop where
  | missing : DisplacementText [] 0
  | integer {text : List Char} {value : Int64} (h : IntegerText text value) :
    DisplacementText text value

/-- A register, and behind a comma the address to load it from or to store it to: a displacement and
a base register in parentheses. -/
inductive AddressText : List Char → Register → Int64 → Register → Prop where
  | parenthesized {valueName baseName : String} {value base : Register} {displacement : Int64}
    {comma number beforeOpen afterOpen beforeClose : List Char}
    (hvalue : Register.Named valueName value) (hcomma : CommaText comma)
    (hnumber : DisplacementText number displacement) (hbeforeOpen : Inline beforeOpen)
    (hafterOpen : Inline afterOpen) (hbase : Register.Named baseName base)
    (hbeforeClose : Inline beforeClose) :
    AddressText (valueName.toList ++ (comma ++ (number ++ (beforeOpen ++ '(' ::
      (afterOpen ++ (baseName.toList ++ (beforeClose ++ [')']))))))) value displacement base

/-! ### Statements -/

/-- The forms of statements. -/
inductive Form where
  /-- A label. -/
  | label
  /-- A directive. -/
  | directive
  /-- An instruction with its operands in the order of the slots. -/
  | plain
  /-- A load or a store with an address. -/
  | address
  deriving DecidableEq, Repr

/-- The operands of an instruction in one of the two forms. Loads put what was loaded first and so
do stores with what they store, whatever the order of their slots. -/
inductive OperandsText : Form → Instruction → List Char → Prop where
  | plain {i : Instruction} {text : List Char}
    (h : PlainText i.opcode.shape.slots text i.operands.toList) : OperandsText .plain i text
  | load {i : Instruction} {text : List Char} {value base : Register} {displacement : Int64}
    (hload : i.opcode.category = .load) (h : AddressText text value displacement base)
    (hi : i.operands = .rdRs1Imm value base (.full displacement)) : OperandsText .address i text
  | store {i : Instruction} {text : List Char} {value base : Register} {displacement : Int64}
    (hstore : i.opcode.category = .store) (h : AddressText text value displacement base)
    (hi : i.operands = .rs1Rs2Imm base value (.full displacement)) : OperandsText .address i text

/-- The mnemonics of the catalog, and the one further spelling. -/
inductive MnemonicText : List Char → Opcode → Prop where
  | catalog (opcode : Opcode) : MnemonicText opcode.mnemonic.toList opcode
  | sltui : MnemonicText "sltui".toList .sltiu

/-- A statement of some form, and its op. The name of a directive and the mnemonic of an instruction
are as long as they can be, and no colon may make labels of them. -/
inductive StatementText : Form → List Char → Op → Prop where
  | label (l : Label) {space : List Char} (hspace : Inline space) :
    StatementText .label (l.name.toList ++ (space ++ [':'])) (.label l)
  | directive {name space value : List Char} {d : Directive} (hname : isSymbol name)
    (hlongest : Stops isSymbolChar (space ++ value)) (hspace : Inline space)
    (hlabel : ¬ BeginsLabel ('.' :: (name ++ (space ++ value))))
    (hd : Directive.ofNameValue (String.ofList name) (String.ofList value) = .ok d) :
    StatementText .directive ('.' :: (name ++ (space ++ value))) (.directive d)
  | instruction {form : Form} {mnemonic space operands : List Char} {i : Instruction}
    (hmnemonic : MnemonicText mnemonic i.opcode)
    (hlongest : Stops isSymbolChar (space ++ operands)) (hspace : Inline space)
    (hcolon : ¬ ColonFollows (space ++ operands)) (hoperands : OperandsText form i operands) :
    StatementText form (mnemonic ++ (space ++ operands)) (.instruction i)

end RiscvDialect.Assembly.Grammar

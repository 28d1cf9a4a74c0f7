import RiscvDialect.Reading
import RiscvDialect.Registry
import RiscvDialect.Text.Line

/-!
# Reading assembly

Each line holds at most one statement: a label with a colon, a directive with a dot, or a mnemonic
with its operands. What follows a `#` outside quotes is a comment, and white space around a
statement does not count.

## Main definitions

* `readOperands`: the operands of an instruction, separated by commas
* `readMemory`: the operands of a load or a store, with the address in parentheses
* `readStatement`: a statement
* `readLine`: a line
* `parse`: a whole text

A symbol with a colon after it is always a label, also when it starts with a dot or is a mnemonic.
The operands of loads and stores may be given in either form.
-/

namespace RiscvDialect.Assembly

variable {κ : Type}

/-! ### Parts of statements -/

/-- Skip spaces and tabs. -/
def skipInline (text : List Char) : List Char :=
  text.dropWhile Text.isInlineSpace

/-- Read a comma with the spaces around it, if there is one. -/
def comma? (text : List Char) : Option (List Char) :=
  match skipInline text with
  | ',' :: rest => some (skipInline rest)
  | _ => none

/-- Read a comma with the spaces around it. -/
def readComma (text : List Char) : Except Fault (List Char) :=
  match comma? text with
  | some rest => .ok rest
  | none => Fault.expected "','" text

/-- Read a label, if there is one. -/
def readLabel (text : List Char) : Option (Label × List Char) :=
  match h : readSymbol text with
  | some (name, rest) =>
    some (⟨String.ofList name, by simpa using (readSymbol_eq_some h).1⟩, rest)
  | none => none

/-- Read a register. Its name runs as far as there are letters and digits. -/
def readRegister (text : List Char) : Except Fault (Register × List Char) :=
  match text.takeWhile Char.isAlphanum with
  | [] => Fault.expected SlotKind.register.describe text
  | name =>
    (Fault.ofRefusal text (Register.ofName (String.ofList name))).map
      fun r => (r, text.dropWhile Char.isAlphanum)

/-- Read an immediate. -/
def readImmediate (text : List Char) : Except Fault (SizedInt × List Char) :=
  match Numeral.readInteger text with
  | none => Fault.expected SlotKind.immediate.describe text
  | some (number, rest) =>
    match Numeral.int64? number with
    | some value => .ok (.full value, rest)
    | none => .error ⟨text, .integerRange⟩

/-- Read a 64-bit integer, if there is one. -/
def readInt64 (text : List Char) : Option (Int64 × List Char) :=
  match Numeral.readInteger text with
  | some (number, rest) => (Numeral.int64? number).map fun value => (value, rest)
  | none => none

/-- Read an offset. Whatever is neither a 64-bit integer nor a label is no offset. -/
def readOffset (text : List Char) : Except Fault (Offset × List Char) :=
  match readInt64 text with
  | some (value, rest) => .ok (.integer (.full value), rest)
  | none =>
    match readLabel text with
    | some (label, rest) => .ok (.label label, rest)
    | none => Fault.expected SlotKind.offset.describe text

/-! ### Operands -/

/-- Read the operand of a slot. -/
def readOperand (kind : SlotKind) (text : List Char) : Except Fault (Operand × List Char) :=
  match kind with
  | .register => (readRegister text).map fun (r, rest) => (.register r, rest)
  | .immediate => (readImmediate text).map fun (i, rest) => (.immediate i, rest)
  | .offset => (readOffset text).map fun (o, rest) => (.offset o, rest)

/-- Read the operands of some slots, with commas between them. -/
def readOperands : List Slot → List Char → Except Fault (List (Slot × Operand) × List Char)
  | [], text => .ok ([], text)
  | [slot], text => (readOperand slot.kind text).map fun (o, rest) => ([(slot, o)], rest)
  | slot :: slots, text => do
    let (operand, rest) ← readOperand slot.kind text
    let (later, rest) ← readOperands slots (← readComma rest)
    return ((slot, operand) :: later, rest)

/-- Whether a register name could start here. -/
def startsName (text : List Char) : Bool :=
  text.head?.any Char.isAlphanum

/-- Read the operands of a load or a store with the address in parentheses, where `valueSlot` takes
the register before the address. The displacement may be missing and is zero then. The answer is
`none` if the text is not of this form; it is an error if the form is there up to a register that
does not exist. -/
def readMemory (valueSlot : Slot) (text : List Char) :
    Except Fault (Option (List (Slot × Operand) × List Char)) :=
  if startsName text then do
    let (value, rest) ← readRegister text
    match comma? rest with
    | none => return none
    | some rest =>
      let (displacement, rest) := (readInt64 rest).getD (0, rest)
      match skipInline rest with
      | '(' :: rest =>
        let rest := skipInline rest
        if startsName rest then do
          let (base, rest) ← readRegister rest
          match skipInline rest with
          | ')' :: rest =>
            return some ([(valueSlot, .register value), (.rs1, .register base),
              (.immediate, .immediate (.full displacement))], rest)
          | _ => return none
        else return none
      | _ => return none
  else return none

/-- The slot of the register that a load or a store moves. -/
def movedSlot (shape : Shape) : Slot :=
  if shape = .rs1Rs2Imm then .rs2 else .rd

/-- Read the operands of an instruction, in either form if it is a load or a store. -/
def readInstructionOperands (opcode : Opcode) (text : List Char) :
    Except Fault (List (Slot × Operand) × List Char) := do
  if opcode.isMemory then
    match ← readMemory (movedSlot opcode.shape) text with
    | some result => return result
    | none => readOperands opcode.shape.slots text
  else readOperands opcode.shape.slots text

/-! ### Statements -/

/-- Refuse a kind of op whose name the registry does not know. -/
def requireOp (registry : Registry κ) (name : String) (code : List Char) : Except Fault Unit :=
  match registry.op? name with
  | some _ => .ok ()
  | none => .error ⟨code, .refused (.unknownOp name)⟩

/-- Read a label with its colon, if there is one. -/
def readLabelDefinition (code : List Char) : Option (Label × List Char) :=
  match readLabel code with
  | some (label, rest) =>
    match skipInline rest with
    | ':' :: rest => some (label, rest)
    | _ => none
  | none => none

/-- Read a directive. The `code` is a dot and `body`, and all of it belongs to the directive. -/
def readDirective (registry : Registry κ) (code body : List Char) : Except Fault Directive := do
  requireOp registry Directive.opName code
  match readSymbol body with
  | none => Fault.expected "directive name" body
  | some (name, rest) =>
    let value := Text.trimEnd (skipInline rest)
    Fault.ofRefusal code (Directive.ofNameValue (String.ofList name) (String.ofList value))

/-- Read an instruction. Its mnemonic must be known under the names of the dialect. -/
def readInstruction (registry : Registry κ) (code : List Char) :
    Except Fault (Instruction × List Char) :=
  match readSymbol code with
  | none => Fault.expected "mnemonic" code
  | some (mnemonic, rest) =>
    let name := Opcode.dialectStem ++ String.ofList mnemonic
    match registry.op? name with
    | some (.instruction opcode) => do
      let (operands, rest) ← readInstructionOperands opcode (skipInline rest)
      let entries := operands.map fun (slot, operand) => (slot.name, operand.toAttribute)
      let i ← Fault.ofRefusal code (Instruction.ofDictionary opcode entries)
      return (i, rest)
    | _ => .error ⟨code, .refused (.unknownOp name)⟩

/-- Read a statement. -/
def readStatement (registry : Registry κ) (code : List Char) : Except Fault (Op × List Char) :=
  match readLabelDefinition code with
  | some (label, rest) => do
    requireOp registry Label.opName code
    return (.label label, rest)
  | none =>
    match code with
    | '.' :: body => (readDirective registry code body).map fun d => (.directive d, [])
    | _ => (readInstruction registry code).map fun (i, rest) => (.instruction i, rest)

/-! ### Lines and texts -/

/-- Read a statement and make sure that nothing follows it. -/
def readCode (registry : Registry κ) (code : List Char) : Except Fault Op := do
  let (op, rest) ← readStatement registry code
  match skipInline rest with
  | [] => return op
  | rest => Fault.expected "end of line" rest

/-- The op on a line that starts at `start`, if there is one. -/
def readLine (registry : Registry κ) (start : Text.Position) (line : List Char) :
    Except ParseError (Option Op) :=
  let bare := Text.uncommented line
  match Text.trim bare with
  | [] => .ok none
  | code =>
    match readCode registry code with
    | .ok op => .ok (some op)
    | .error fault => .error (fault.report (start.advance (bare.takeWhile Text.isSpace)) code)

/-- The ops on some lines, the first of which starts at `start`. -/
def readLines (registry : Registry κ) (start : Text.Position) :
    List Text.Line → Except ParseError Program
  | [] => .ok []
  | line :: later => do
    let op? ← readLine registry start line.content
    let ops ← readLines registry (start.advance line.text) later
    return op?.toList ++ ops

/-- The program that a text writes. -/
def parse (registry : Registry κ) (text : String) : Except ParseError Program :=
  readLines registry .start (Text.lines text.toList)

end RiscvDialect.Assembly

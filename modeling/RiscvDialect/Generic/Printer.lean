import RiscvDialect.Generic.Quoted
import RiscvDialect.Program

/-!
# Writing the generic format

The generic format writes every op alike: its quoted name, empty parentheses, and the values that
it carries by key. A program is a module around its ops, one on each line.

## Main definitions

* `Attribute.generic`, `Op.generic`, `Program.generic`: the text of a value, an op, a program
-/

namespace RiscvDialect

/-- A parameter in its angle brackets. -/
def ParameterKind.bracket (parameter : String) : String :=
  "<" ++ parameter ++ ">"

/-- The text of an integer: its value and its width as a type. -/
def SizedInt.generic (i : SizedInt) : String :=
  toString i.value.toInt ++ " : i" ++ toString i.width

namespace Attribute

/-- The text of a value. -/
def generic : Attribute → String
  | .register r => "!" ++ ParameterKind.register.name ++ ParameterKind.bracket r.abiName
  | .label l => "!" ++ ParameterKind.label.name ++ ParameterKind.bracket l.name
  | .integer i => i.generic
  | .string s => Generic.quote s

end Attribute

/-- The text of a value with its key. -/
def Dictionary.entryText (entry : String × Attribute) : String :=
  Generic.quote entry.1 ++ " = " ++ entry.2.generic

/-- The text of a dictionary. -/
def Dictionary.generic (entries : Dictionary) : String :=
  "\x7b" ++ ", ".intercalate (entries.map Dictionary.entryText) ++ "\x7d"

/-- The text of an op. An op without values is written without a dictionary. -/
def Op.generic (op : Op) : String :=
  Generic.quote op.name ++ "()" ++
    if op.attributes.isEmpty then "" else " " ++ Dictionary.generic op.attributes

/-- The text of a program, without a newline after the closing brace. -/
def Program.generic (p : Program) : String :=
  "module \x7b\n" ++ String.join (p.map fun op => "  " ++ op.generic ++ "\n") ++ "\x7d"

end RiscvDialect

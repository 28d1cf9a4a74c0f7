import RiscvDialect.Dictionary
import RiscvDialect.Text.Quotation
import RiscvDialect.Text.Space

/-!
# Directives

A directive is a name and a value that one line of assembly can carry, so that reading the line
gives the name and the value back.

## Main definitions

* `Directive.defect?`: what is wrong with a name and a value, if anything
* `Directive`: a name and a value with nothing wrong
* `Directive.ofNameValue`, `Directive.ofDictionary`: build a directive
-/

namespace RiscvDialect

/-- The first thing wrong with a directive of the given name and value. -/
def Directive.defect? (name value : String) : Option DirectiveDefect :=
  let text := value.toList
  if ¬ isSymbol name.toList then some .nameNotSymbol
  else if '\n' ∈ text ∨ '\r' ∈ text then some .severalLines
  else if Text.trim text ≠ text then some .outerSpace
  else if text.head? = some ':' then some .leadingColon
  else if Text.uncommented text ≠ text then some .unquotedHash
  else none

/-- An instruction to the assembler. -/
structure Directive where
  /-- What to do, without the leading dot. -/
  name : String
  /-- What to do it with; may be empty. -/
  value : String
  defect?_eq_none : Directive.defect? name value = none
  deriving DecidableEq, Repr

namespace Directive

/-- The directive with the given name and value. -/
def ofNameValue (name value : String) : Except DialectError Directive :=
  match h : defect? name value with
  | none => .ok ⟨name, value, h⟩
  | some defect => .error (.invalidDirective name defect)

/-- The name of directives as ops. -/
def opName : String := "riscv.directive"

/-- The parts of a directive by key. -/
def attributes (d : Directive) : Dictionary :=
  [("directive", .string d.name), ("value", .string d.value)]

/-- The directive with the parts in a dictionary. -/
def ofDictionary (entries : Dictionary) : Except DialectError Directive := do
  entries.checkKeys opName ["directive", "value"]
  let name ← entries.require opName "directive"
  let value ← entries.require opName "value"
  ofNameValue (← name.toText opName "directive") (← value.toText opName "value")

@[simp] theorem ofNameValue_name_value (d : Directive) : ofNameValue d.name d.value = .ok d := by
  rw [ofNameValue]
  split
  · rfl
  · next h => simp [d.defect?_eq_none] at h

end Directive

end RiscvDialect

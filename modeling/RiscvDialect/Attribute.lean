import RiscvDialect.Register
import RiscvDialect.Symbol

/-!
# Attributes

The values that ops carry: registers, labels, integers with a width, and strings.

## Main definitions

* `SizedInt`: a 64-bit integer with the width it is given in
* `Label`: a symbol that names a place in a program
* `Offset`: how far to jump, as a number or as a label
* `Attribute`: a value of one of the four kinds
* `ParameterReader`: kinds of attributes that are written as a name and a parameter
* `ParameterKind`: the two such kinds that the dialect defines itself
-/

namespace RiscvDialect

/-! ### Integers -/

/-- A 64-bit integer together with the number of bits it is given in. The width is a note on the
value and does not bound it. -/
structure SizedInt where
  /-- The integer. -/
  value : Int64
  /-- Its width in bits. -/
  width : Nat
  width_pos : 0 < width := by decide
  width_le : width ≤ 64 := by decide
  deriving DecidableEq, Repr

namespace SizedInt

/-- An integer in the full width. -/
def full (value : Int64) : SizedInt where
  value := value
  width := 64

/-- An integer in the given width. -/
def ofWidth (value : Int64) (width : Nat) : Except DialectError SizedInt :=
  if h : 0 < width ∧ width ≤ 64 then .ok ⟨value, width, h.1, h.2⟩
  else .error (.integerWidth width)

@[simp] theorem ofWidth_width (i : SizedInt) : ofWidth i.value i.width = .ok i := by
  simp [ofWidth, i.width_pos, i.width_le]

end SizedInt

/-! ### Labels -/

/-- The name of a place in a program. -/
structure Label where
  /-- The name. -/
  name : String
  isSymbol_name : isSymbol name.toList
  deriving DecidableEq, Repr

namespace Label

/-- The label with the given name. -/
def ofName (name : String) : Except DialectError Label :=
  if name.isEmpty then .error .emptyLabel
  else if h : isSymbol name.toList then .ok ⟨name, h⟩
  else .error (.invalidLabel name)

theorem name_of_ofName {name : String} {label : Label} (h : ofName name = .ok label) :
    label.name = name := by
  rw [ofName] at h
  split at h
  · simp at h
  · split at h
    · cases h; rfl
    · simp at h

@[simp] theorem ofName_name (label : Label) : ofName label.name = .ok label := by
  have hs := label.isSymbol_name
  have hne : label.name.isEmpty = false := by
    rw [← Bool.not_eq_true]
    intro he
    rw [String.isEmpty_iff.1 he] at hs
    simp [isSymbol] at hs
  simp [ofName, hne, hs]

end Label

/-! ### Attributes -/

/-- How far to jump: a number of bytes, or a place in the program. -/
inductive Offset where
  | integer (i : SizedInt)
  | label (l : Label)
  deriving DecidableEq, Repr

/-- A value that an op carries. -/
inductive Attribute where
  | register (r : Register)
  | label (l : Label)
  | integer (i : SizedInt)
  | string (s : String)
  deriving DecidableEq, Repr

/-- The kind of a value. -/
def Attribute.kind : Attribute → AttributeKind
  | .register _ => .register
  | .label _ => .label
  | .integer _ => .integer
  | .string _ => .string

namespace Offset

/-- The number of bytes, if the offset is a number. -/
def integer? : Offset → Option SizedInt
  | .integer i => some i
  | .label _ => none

/-- The place in the program, if the offset is a label. -/
def label? : Offset → Option Label
  | .integer _ => none
  | .label l => some l

/-- The offset as a value. -/
def toAttribute : Offset → Attribute
  | .integer i => .integer i
  | .label l => .label l

/-- A value as an offset. -/
def ofAttribute : Attribute → Except DialectError Offset
  | .integer i => .ok (.integer i)
  | .label l => .ok (.label l)
  | other => .error (.offsetKind other.kind)

@[simp] theorem ofAttribute_toAttribute (o : Offset) : ofAttribute o.toAttribute = .ok o := by
  cases o <;> rfl

end Offset

/-! ### Parameters -/

/-- Kinds of attributes that are written as a name and a parameter in angle brackets. The dialect
has two of them, and a registry may be made for others. -/
class ParameterReader (κ : Type) where
  /-- Read a parameter off the start of a text, up to its closing bracket, which is left unread. -/
  read : κ → List Char → Except DialectError (Attribute × List Char)
  /-- What is left is the unread part of the text. -/
  suffix_of_read : ∀ {kind : κ} {text rest : List Char} {value : Attribute},
    read kind text = .ok (value, rest) → rest <:+ text

/-- The kinds of attributes that the dialect defines itself. Such an attribute is written as a name
and a parameter in angle brackets. -/
inductive ParameterKind where
  | register
  | label
  deriving DecidableEq, Repr

namespace ParameterKind

/-- The name before the parameter. -/
def name : ParameterKind → String
  | .register => "riscv.reg"
  | .label => "riscv.label"

/-- The attribute with the given parameter. -/
def attributeOf : ParameterKind → String → Except DialectError Attribute
  | .register, text => Attribute.register <$> Register.ofName text
  | .label, text => Attribute.label <$> Label.ofName text

/-- Read a parameter, which runs up to the next closing angle bracket, or to the end of the text.
The bracket is left unread. -/
def read (kind : ParameterKind) (text : List Char) : Except DialectError (Attribute × List Char) :=
  (kind.attributeOf (String.ofList (text.takeWhile (· != '>')))).map
    fun value => (value, text.dropWhile (· != '>'))

theorem suffix_of_read {kind : ParameterKind} {text rest : List Char} {value : Attribute}
    (h : kind.read text = .ok (value, rest)) : rest <:+ text := by
  rw [read] at h
  cases hvalue : kind.attributeOf (String.ofList (text.takeWhile (· != '>'))) with
  | error e => simp [hvalue, Except.map] at h
  | ok v =>
    simp only [hvalue, Except.map, Except.ok.injEq, Prod.mk.injEq] at h
    exact h.2 ▸ List.dropWhile_suffix _

instance : ParameterReader ParameterKind where
  read := read
  suffix_of_read := suffix_of_read

@[simp] theorem parameterReader_read (kind : ParameterKind) (text : List Char) :
    ParameterReader.read kind text = kind.read text := rfl

end ParameterKind

end RiscvDialect

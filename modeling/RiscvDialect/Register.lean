import RiscvDialect.Error
import RiscvDialect.Numeral

/-!
# Registers

The 32 integer registers. A register has a numeric name, `x0` to `x31`, and a name from the calling
convention; register 8 has two of these, of which `s0` is the one written.

## Main definitions

* `Register`: a register
* `Register.abiNames`: the names from the calling convention, with their registers
* `Register.abiName`, `Register.numericName`: the two ways to write a register
* `Register.ofIndex`, `Register.ofName`: the register with a given index or name, if there is one
-/

namespace RiscvDialect

/-- An integer register. -/
structure Register where
  /-- Its number. -/
  index : Fin 32
  deriving DecidableEq, Repr

namespace Register

/-- All registers, by index. -/
def all : List Register :=
  (List.finRange 32).map Register.mk

/-- The names from the calling convention with the registers that they mean. -/
def abiNames : List (String × Register) :=
  [("zero", ⟨0⟩), ("ra", ⟨1⟩), ("sp", ⟨2⟩), ("gp", ⟨3⟩), ("tp", ⟨4⟩), ("t0", ⟨5⟩), ("t1", ⟨6⟩),
    ("t2", ⟨7⟩), ("s0", ⟨8⟩), ("fp", ⟨8⟩), ("s1", ⟨9⟩), ("a0", ⟨10⟩), ("a1", ⟨11⟩), ("a2", ⟨12⟩),
    ("a3", ⟨13⟩), ("a4", ⟨14⟩), ("a5", ⟨15⟩), ("a6", ⟨16⟩), ("a7", ⟨17⟩), ("s2", ⟨18⟩),
    ("s3", ⟨19⟩), ("s4", ⟨20⟩), ("s5", ⟨21⟩), ("s6", ⟨22⟩), ("s7", ⟨23⟩), ("s8", ⟨24⟩),
    ("s9", ⟨25⟩), ("s10", ⟨26⟩), ("s11", ⟨27⟩), ("t3", ⟨28⟩), ("t4", ⟨29⟩), ("t5", ⟨30⟩),
    ("t6", ⟨31⟩)]

/-- The names written for the registers, by index. -/
def canonicalNames : Vector String 32 :=
  #v["zero", "ra", "sp", "gp", "tp", "t0", "t1", "t2", "s0", "s1", "a0", "a1", "a2", "a3", "a4",
    "a5", "a6", "a7", "s2", "s3", "s4", "s5", "s6", "s7", "s8", "s9", "s10", "s11", "t3", "t4",
    "t5", "t6"]

/-- The name of a register from the calling convention. -/
def abiName (r : Register) : String :=
  canonicalNames[r.index]

/-- The name of a register by its number. -/
def numericName (r : Register) : String :=
  "x" ++ toString r.index.val

/-- The register with the given index. -/
def ofIndex (index : Int) : Except DialectError Register :=
  if h : 0 ≤ index ∧ index < 32 then .ok ⟨⟨index.toNat, by omega⟩⟩
  else .error (.registerIndex index)

/-- The register with the given name. An `x` and decimal digits, with any number of leading zeros,
name a register by its index; an index beyond the 64-bit integers is reported as the largest of
them. -/
def ofName (name : String) : Except DialectError Register :=
  match abiNames.lookup name with
  | some r => .ok r
  | none =>
    match name.toList with
    | 'x' :: digits =>
      if digits ≠ [] ∧ digits.all Char.isDigit then
        ofIndex (min (Numeral.ofDecimalDigits digits) 0x7FFFFFFFFFFFFFFF)
      else .error (.registerName name)
    | _ => .error (.registerName name)

@[simp] theorem ofIndex_index (r : Register) : ofIndex r.index.val = .ok r := by
  have h : 0 ≤ (r.index.val : Int) ∧ (r.index.val : Int) < 32 := by omega
  simp [ofIndex, h]

end Register

end RiscvDialect

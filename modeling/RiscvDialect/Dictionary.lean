import RiscvDialect.Attribute

/-!
# Dictionaries

The keyed values from which ops are built. A dictionary fits an op if its keys are the keys of the
op, each of them once and in any order, and the values are of the kinds that the keys ask for.

## Main definitions

* `Dictionary`: keys with their values, as they were written
* `Dictionary.checkKeys`: refuses keys that an op does not have and keys given twice
* `Dictionary.require`: the value of a key
-/

namespace RiscvDialect

/-- Keys with their values, in the order in which they were written. -/
abbrev Dictionary := List (String × Attribute)

namespace Dictionary

/-- Check that all keys are among `keys` and that none comes twice or is in `seen`. The first
offending entry is the one reported. -/
def checkKeysFrom (op : String) (keys seen : List String) : Dictionary → Except DialectError Unit
  | [] => .ok ()
  | (key, _) :: rest =>
    if key ∉ keys then .error (.unexpectedKey op key)
    else if key ∈ seen then .error (.repeatedKey op key)
    else checkKeysFrom op keys (key :: seen) rest

/-- Check that all keys are among those of the op and that none comes twice. -/
def checkKeys (op : String) (keys : List String) (entries : Dictionary) :
    Except DialectError Unit :=
  checkKeysFrom op keys [] entries

/-- The value of a key that the op needs. -/
def require (entries : Dictionary) (op key : String) : Except DialectError Attribute :=
  match entries.lookup key with
  | some value => .ok value
  | none => .error (.missingKey op key)

end Dictionary

/-! ### Values of a known kind -/

namespace Attribute

/-- The register that a value under a key has to be. -/
def toRegister (op key : String) : Attribute → Except DialectError Register
  | .register r => .ok r
  | other => .error (.valueKind op key .register other.kind)

/-- The integer that a value under a key has to be. -/
def toInteger (op key : String) : Attribute → Except DialectError SizedInt
  | .integer i => .ok i
  | other => .error (.valueKind op key .integer other.kind)

/-- The label that a value under a key has to be. -/
def toLabel (op key : String) : Attribute → Except DialectError Label
  | .label l => .ok l
  | other => .error (.valueKind op key .label other.kind)

/-- The string that a value under a key has to be. -/
def toText (op key : String) : Attribute → Except DialectError String
  | .string s => .ok s
  | other => .error (.valueKind op key .string other.kind)

end Attribute

end RiscvDialect

import RiscvDialect.Opcode

/-!
# Errors of the dialect

Why a register, an attribute, an op or a registration is refused.

## Main definitions

* `DirectiveDefect`: what can be wrong with a directive
* `DialectError`: the reasons for a refusal, with `DialectError.message` for their wording

## Main statements

* `Except.bind_eq_ok`: a sequence of steps that may fail succeeds when its steps do
-/

namespace RiscvDialect

/-- What keeps a directive from being written as one line of assembly and read back. -/
inductive DirectiveDefect where
  /-- The name is not a symbol. -/
  | nameNotSymbol
  /-- The value contains a line break. -/
  | severalLines
  /-- The value has white space at an end, where reading drops it. -/
  | outerSpace
  /-- The value starts with a colon, so that the line would define a label. -/
  | leadingColon
  /-- The value contains the start of a comment. -/
  | unquotedHash
  deriving DecidableEq, Repr

/-- The defect in words. -/
def DirectiveDefect.describe : DirectiveDefect → String
  | .nameNotSymbol => "name must be a symbol"
  | .severalLines => "value spans more than one line"
  | .outerSpace => "value has leading or trailing whitespace"
  | .leadingColon => "value starts with ':'"
  | .unquotedHash => "value contains an unquoted '#'"

/-- Why something is no part of the dialect. -/
inductive DialectError where
  /-- There is no register with this index. -/
  | registerIndex (index : Int)
  /-- There is no register with this name. -/
  | registerName (name : String)
  /-- An offset slot was given a value of another kind. -/
  | offsetKind (found : AttributeKind)
  /-- A label without characters. -/
  | emptyLabel
  /-- A label that is not a symbol. -/
  | invalidLabel (label : String)
  /-- A directive that assembly cannot carry. -/
  | invalidDirective (name : String) (defect : DirectiveDefect)
  /-- An integer with no bits or with more than 64. -/
  | integerWidth (width : Nat)
  /-- No op is registered under this name. -/
  | unknownOp (name : String)
  /-- No attribute is registered under this name. -/
  | unknownAttribute (name : String)
  /-- Operands of a shape other than the instruction's. -/
  | shapeMismatch (opcode : Opcode) (found : Shape)
  /-- An op lacks the value of one of its keys. -/
  | missingKey (op key : String)
  /-- An op was given a key that it does not have. -/
  | unexpectedKey (op key : String)
  /-- An op was given a key twice. -/
  | repeatedKey (op key : String)
  /-- A key of an op was given a value of the wrong kind. -/
  | valueKind (op key : String) (expected found : AttributeKind)
  /-- A name is taken. -/
  | alreadyRegistered (name : String)
  deriving DecidableEq, Repr

/-- The error in words. -/
def DialectError.message : DialectError → String
  | .registerIndex index => s!"register index {index} out of range (expected 0..=31)"
  | .registerName name => s!"unknown register name '{name}'"
  | .offsetKind found => s!"offset must be an integer or a label, found {found.describe}"
  | .emptyLabel => "label must not be empty"
  | .invalidLabel label =>
    s!"invalid label '{label}' (expected a symbol such as 'loop' or '.L1')"
  | .invalidDirective name defect => s!"invalid directive '.{name}': {defect.describe}"
  | .integerWidth width => s!"integer width {width} out of range (expected 1..=64)"
  | .unknownOp name => s!"unknown operation '{name}'"
  | .unknownAttribute name => s!"unknown attribute '!{name}'"
  | .shapeMismatch opcode found =>
    s!"'{opcode.name}' has shape {opcode.shape.name}, but operands of shape {found.name} were given"
  | .missingKey op key => s!"'{op}' requires attribute '{key}'"
  | .unexpectedKey op key => s!"'{op}' has no attribute '{key}'"
  | .repeatedKey op key => s!"attribute '{key}' given twice for '{op}'"
  | .valueKind op key expected found =>
    s!"attribute '{key}' of '{op}' must be {expected.describe}, found {found.describe}"
  | .alreadyRegistered name => s!"'{name}' is already registered"

/-! ### Steps that may fail -/

/-- A sequence of two steps succeeds when the first does and the second does on its result. -/
theorem Except.bind_eq_ok {ε α β : Type} {x : Except ε α} {f : α → Except ε β} {b : β} :
    x >>= f = .ok b ↔ ∃ a, x = .ok a ∧ f a = .ok b := by
  cases x <;> simp [bind, Except.bind]

/-- A sequence of two steps fails when the first does, or the second does on its result. -/
theorem Except.bind_eq_error {ε α β : Type} {x : Except ε α} {f : α → Except ε β} {e : ε} :
    x >>= f = .error e ↔ x = .error e ∨ ∃ a, x = .ok a ∧ f a = .error e := by
  cases x <;> simp [bind, Except.bind]

/-- A changed result is a success when the result is one. -/
theorem Except.map_eq_ok {ε α β : Type} {x : Except ε α} {f : α → β} {b : β} :
    x.map f = .ok b ↔ ∃ a, x = .ok a ∧ f a = b := by
  cases x <;> simp [Except.map]

/-- Another error for a failure makes no difference to a success. -/
theorem Except.mapError_eq_ok {ε δ α : Type} {x : Except ε α} {f : ε → δ} {a : α} :
    x.mapError f = .ok a ↔ x = .ok a := by
  cases x with
  | ok b =>
    change Except.ok b = .ok a ↔ Except.ok b = .ok a
    rw [Except.ok.injEq, Except.ok.injEq]
  | error => exact ⟨nofun, nofun⟩

end RiscvDialect

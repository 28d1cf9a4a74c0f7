import Mathlib.Tactic.ByContra
import RiscvDialect.Operands

/-!
# Operands as a caller gives them

A caller may give a constant as a plain number, as the text of a label, or as a finished value. What
is meant by it is said here without a computation: a plain number is an integer with 64 bits, a text
is the label of this name, and a finished value is itself. The registers are those given.

Operands are related shape by shape, with relations for their two constants. To resolve what a
caller gave is to find the operands that it means, of which there are none only if a text is no
symbol.

## Main definitions

* `OperandsWith.LiftRel`: the same registers, and related constants
* `ImmediateSpec.Means`, `OffsetSpec.Means`, `OperandSpecs.Mean`: what is meant
* `ImmediateSpec.HasNumber`: the number of an immediate with 64 bits
* `OperandSpec`, `OperandSpecs.toList`: operands as a caller gives them, one by one

## Main statements

* `OperandSpecs.resolve_eq_ok`: operands are resolved to what is meant
* `OperandSpecs.resolve_eq_error`: a label is all that can be wrong with the operands of a caller
* `OperandSpecs.exists_resolve_iff`: when the operands of a caller are resolved
-/

namespace RiscvDialect

/-! ### Related operands -/

/-- Operands of the same shape with the same registers, whose constants are related. -/
inductive OperandsWith.LiftRel {ι ω κ ψ : Type} (immediate : ι → κ → Prop) (offset : ω → ψ → Prop) :
    OperandsWith ι ω → OperandsWith κ ψ → Prop where
  | rdRs1Imm (rd rs1 : Register) {i : ι} {k : κ} (h : immediate i k) :
    LiftRel immediate offset (.rdRs1Imm rd rs1 i) (.rdRs1Imm rd rs1 k)
  | rdRs1Off (rd rs1 : Register) {o : ω} {q : ψ} (h : offset o q) :
    LiftRel immediate offset (.rdRs1Off rd rs1 o) (.rdRs1Off rd rs1 q)
  | rs1Rs2Imm (rs1 rs2 : Register) {i : ι} {k : κ} (h : immediate i k) :
    LiftRel immediate offset (.rs1Rs2Imm rs1 rs2 i) (.rs1Rs2Imm rs1 rs2 k)
  | rs1Rs2Off (rs1 rs2 : Register) {o : ω} {q : ψ} (h : offset o q) :
    LiftRel immediate offset (.rs1Rs2Off rs1 rs2 o) (.rs1Rs2Off rs1 rs2 q)
  | rdRs1Rs2 (rd rs1 rs2 : Register) :
    LiftRel immediate offset (.rdRs1Rs2 rd rs1 rs2) (.rdRs1Rs2 rd rs1 rs2)
  | rsRtOff (rs rt : Register) {o : ω} {q : ψ} (h : offset o q) :
    LiftRel immediate offset (.rsRtOff rs rt o) (.rsRtOff rs rt q)
  | rdImm (rd : Register) {i : ι} {k : κ} (h : immediate i k) :
    LiftRel immediate offset (.rdImm rd i) (.rdImm rd k)
  | rdOff (rd : Register) {o : ω} {q : ψ} (h : offset o q) :
    LiftRel immediate offset (.rdOff rd o) (.rdOff rd q)
  | rsOff (rs : Register) {o : ω} {q : ψ} (h : offset o q) :
    LiftRel immediate offset (.rsOff rs o) (.rsOff rs q)
  | rdRs (rd rs : Register) : LiftRel immediate offset (.rdRs rd rs) (.rdRs rd rs)
  | noOperands : LiftRel immediate offset .noOperands .noOperands

namespace OperandsWith

variable {ι ω κ ψ ε : Type} {operands : OperandsWith ι ω} {result : OperandsWith κ ψ}

/-- Constants are changed one by one, and nothing else is. -/
theorem mapConstants_eq_ok {immediate : ι → Except ε κ} {offset : ω → Except ε ψ} :
    operands.mapConstants immediate offset = .ok result ↔
      operands.LiftRel (fun i k => immediate i = .ok k) (fun o q => offset o = .ok q) result := by
  constructor
  · intro h
    cases operands <;> simp only [mapConstants, Except.bind_eq_ok] at h
    case rdRs1Imm | rs1Rs2Imm | rdImm =>
      obtain ⟨k, hk, hresult⟩ := h
      cases hresult
      constructor
      exact hk
    case rdRs1Off | rs1Rs2Off | rsRtOff | rdOff | rsOff =>
      obtain ⟨q, hq, hresult⟩ := h
      cases hresult
      constructor
      exact hq
    case rdRs1Rs2 | rdRs | noOperands =>
      cases h
      constructor
  · rintro ⟨⟩ <;> simp_all [mapConstants, bind, Except.bind, pure, Except.pure]

end OperandsWith

/-! ### One by one -/

/-- An operand as a caller gives it. -/
inductive OperandSpec where
  | register (r : Register)
  | immediate (i : ImmediateSpec)
  | offset (o : OffsetSpec)

/-- The operands as a caller gives them, in the order in which they are written. -/
def OperandSpecs.toList : OperandSpecs → List OperandSpec
  | .rdRs1Imm rd rs1 i => [.register rd, .register rs1, .immediate i]
  | .rdRs1Off rd rs1 o => [.register rd, .register rs1, .offset o]
  | .rs1Rs2Imm rs1 rs2 i => [.register rs1, .register rs2, .immediate i]
  | .rs1Rs2Off rs1 rs2 o => [.register rs1, .register rs2, .offset o]
  | .rdRs1Rs2 rd rs1 rs2 => [.register rd, .register rs1, .register rs2]
  | .rsRtOff rs rt o => [.register rs, .register rt, .offset o]
  | .rdImm rd i => [.register rd, .immediate i]
  | .rdOff rd o => [.register rd, .offset o]
  | .rsOff rs o => [.register rs, .offset o]
  | .rdRs rd rs => [.register rd, .register rs]
  | .noOperands => []

/-! ### What is meant -/

/-- The integer that is meant by an immediate. -/
inductive ImmediateSpec.Means : ImmediateSpec → SizedInt → Prop where
  /-- A number is meant in 64 bits. -/
  | value {i : SizedInt} (hwidth : i.width = 64) : Means (.value i.value) i
  | sized (i : SizedInt) : Means (.sized i) i

/-- The offset that is meant. -/
inductive OffsetSpec.Means : OffsetSpec → Offset → Prop where
  /-- A number is meant in 64 bits. -/
  | value {i : SizedInt} (hwidth : i.width = 64) : Means (.value i.value) (.integer i)
  /-- A text is the name of a label. -/
  | labelText (l : Label) : Means (.labelText l.name) (.label l)
  | offset (o : Offset) : Means (.offset o) o

/-- The operands that are meant have the registers that were given. -/
def OperandSpecs.Mean (specs : OperandSpecs) (operands : Operands) : Prop :=
  specs.LiftRel ImmediateSpec.Means OffsetSpec.Means operands

/-- The number of an immediate that has 64 bits. -/
inductive ImmediateSpec.HasNumber : ImmediateSpec → Int64 → Prop where
  | value (v : Int64) : HasNumber (.value v) v
  | sized {i : SizedInt} (hwidth : i.width = 64) : HasNumber (.sized i) i.value

theorem SizedInt.full_eq_iff {v : Int64} {i : SizedInt} :
    full v = i ↔ v = i.value ∧ i.width = 64 := by
  obtain ⟨value, width, _, _⟩ := i
  simp [full, eq_comm]

namespace ImmediateSpec

variable {spec : ImmediateSpec} {i : SizedInt}

theorem resolve_eq_iff : spec.resolve = i ↔ spec.Means i := by
  constructor
  · rintro rfl
    cases spec with
    | value v => exact .value (i := .full v) rfl
    | sized i => exact .sized i
  · rintro (hwidth | _)
    · exact SizedInt.full_eq_iff.2 ⟨rfl, hwidth⟩
    · rfl

/-- The number of an immediate is that of the integer that is meant, if this has 64 bits. -/
theorem Means.hasNumber_iff (h : spec.Means i) {value : Int64} :
    spec.HasNumber value ↔ .full value = i := by
  rw [SizedInt.full_eq_iff]
  constructor
  · rintro (_ | hwidth)
    · cases h with
      | value hwidth => exact ⟨rfl, hwidth⟩
    · cases h
      exact ⟨rfl, hwidth⟩
  · rintro ⟨rfl, hwidth⟩
    cases h with
    | value => exact .value _
    | sized => exact .sized hwidth

end ImmediateSpec

/-- A text that is no symbol is refused as a label, and the error tells if it is empty. -/
theorem Label.ofName_eq_error {name : String} {e : DialectError} : ofName name = .error e ↔
    ¬ isSymbol name.toList ∧ e = if name.isEmpty then .emptyLabel else .invalidLabel name := by
  rw [ofName]
  split
  · next hempty =>
    have hsymbol : ¬ isSymbol name.toList := by simp [String.isEmpty_iff.1 hempty, isSymbol]
    simp [hsymbol, eq_comm]
  · split
    · next hsymbol => simp [hsymbol]
    · next hsymbol => simp [hsymbol, eq_comm]

namespace OffsetSpec

variable {spec : OffsetSpec}

theorem resolve_eq_ok {o : Offset} : spec.resolve = .ok o ↔ spec.Means o := by
  constructor
  · intro h
    cases spec with
    | value v =>
      cases h
      exact .value (i := .full v) rfl
    | labelText text =>
      obtain ⟨l, hl, rfl⟩ := Except.map_eq_ok.1 h
      rw [← Label.name_of_ofName hl]
      exact .labelText l
    | offset o =>
      cases h
      exact .offset o
  · rintro (hwidth | l | _)
    · rw [resolve, SizedInt.full_eq_iff.2 ⟨rfl, hwidth⟩]
    · rw [resolve, Label.ofName_name]
      rfl
    · rfl

theorem resolve_eq_error {e : DialectError} :
    spec.resolve = .error e ↔ ∃ text, spec = .labelText text ∧ Label.ofName text = .error e := by
  cases spec with
  | value => simp [resolve]
  | offset => simp [resolve]
  | labelText text => cases h : Label.ofName text <;> simp [resolve, h, Functor.map, Except.map]

end OffsetSpec

namespace OperandSpecs

variable {specs : OperandSpecs}

/-- Operands are resolved to what is meant. -/
theorem resolve_eq_ok {operands : Operands} :
    specs.resolve = .ok operands ↔ specs.Mean operands := by
  rw [resolve, OperandsWith.mapConstants_eq_ok, Mean]
  simp only [Except.ok.injEq, ImmediateSpec.resolve_eq_iff, OffsetSpec.resolve_eq_ok]

/-- Operands can only be refused for their offset. -/
theorem resolve_eq_error {e : DialectError} : specs.resolve = .error e ↔
    ∃ text, specs.offset = some (.labelText text) ∧ Label.ofName text = .error e := by
  have hoffset : specs.resolve = .error e ↔ ∃ o, specs.offset = some o ∧ o.resolve = .error e := by
    cases specs <;>
      simp only [resolve, OperandsWith.mapConstants, offset, Except.bind_eq_error] <;>
      simp [pure, Except.pure]
  simp only [hoffset, OffsetSpec.resolve_eq_error]
  constructor
  · rintro ⟨_, ho, text, rfl, h⟩
    exact ⟨text, ho, h⟩
  · rintro ⟨text, ho, h⟩
    exact ⟨_, ho, text, rfl, h⟩

theorem exists_resolve_iff : (∃ operands, specs.resolve = .ok operands) ↔
    ∀ text, specs.offset = some (.labelText text) → isSymbol text.toList := by
  constructor
  · rintro ⟨operands, h⟩ text hoffset
    by_contra hsymbol
    have herror := resolve_eq_error.2 ⟨text, hoffset, Label.ofName_eq_error.2 ⟨hsymbol, rfl⟩⟩
    simp [h] at herror
  · intro h
    cases hresolve : specs.resolve with
    | ok operands => exact ⟨operands, rfl⟩
    | error e =>
      obtain ⟨text, hoffset, herror⟩ := resolve_eq_error.1 hresolve
      exact absurd (h text hoffset) (Label.ofName_eq_error.1 herror).1

end OperandSpecs

end RiscvDialect

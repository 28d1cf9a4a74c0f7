import Mathlib.Data.List.Forall2
import RiscvDialect.Proofs.Assembly.Grammar
import RiscvDialect.Proofs.OperandSpecs

/-!
# Operands as a caller gives them, in assembly

What a caller gives for an operand can be written in assembly as it is: a register under any of its
names, a number in any spelling, and the text of a label without a change. An integer that is given
with a width must have 64 bits.

The texts are those of the finished operands that are meant, so they can be written without a way
through the finished operands, and they are read as these.

## Main definitions

* `SpecText`, `SpecsText`: single operands, and operands with commas between them
* `GivenText`: all operands of an instruction, in either form

## Main statements

* `specText_register_iff`, `specText_immediate_iff`, `specText_offset_iff`: what is given for an
  operand is written as the operand that is meant
* `givenText_iff`: what is given for an instruction is written as the instruction that is meant
-/

namespace RiscvDialect.Assembly.Grammar

variable {text : List Char}

/-! ### What is given, in assembly -/

/-- What is given for one operand. -/
inductive SpecText : OperandSpec → List Char → Prop where
  | register {name : String} {r : Register} (h : Register.Named name r) :
    SpecText (.register r) name.toList
  | immediate {i : ImmediateSpec} {value : Int64} {text : List Char} (hi : i.HasNumber value)
    (h : IntegerText text value) : SpecText (.immediate i) text
  | value {value : Int64} {text : List Char} (h : IntegerText text value) :
    SpecText (.offset (.value value)) text
  | labelText (text : String) : SpecText (.offset (.labelText text)) text.toList
  | integer {i : SizedInt} {text : List Char} (hwidth : i.width = 64)
    (h : IntegerText text i.value) : SpecText (.offset (.offset (.integer i))) text
  | label (l : Label) : SpecText (.offset (.offset (.label l))) l.name.toList

/-- What is given for some operands, with a comma between any two. -/
inductive SpecsText : List OperandSpec → List Char → Prop where
  | none : SpecsText [] []
  | last {spec : OperandSpec} {text : List Char} (h : SpecText spec text) : SpecsText [spec] text
  | more {spec next : OperandSpec} {specs : List OperandSpec} {text comma later : List Char}
    (h : SpecText spec text) (hcomma : CommaText comma) (hlater : SpecsText (next :: specs) later) :
    SpecsText (spec :: next :: specs) (text ++ (comma ++ later))

/-- What is given for all operands of an instruction, in one of the two forms. An address has the
first source as its base; in front of it stands the destination of a load, or the second source,
which a store takes to memory. -/
inductive GivenText (opcode : Opcode) : Form → OperandSpecs → List Char → Prop where
  | plain {specs : OperandSpecs} {text : List Char} (h : SpecsText specs.toList text) :
    GivenText opcode .plain specs text
  | load {rd rs1 : Register} {i : ImmediateSpec} {displacement : Int64} {text : List Char}
    (hload : opcode.category = .load) (hi : i.HasNumber displacement)
    (h : AddressText text rd displacement rs1) : GivenText opcode .address (.rdRs1Imm rd rs1 i) text
  | store {rs1 rs2 : Register} {i : ImmediateSpec} {displacement : Int64} {text : List Char}
    (hstore : opcode.category = .store) (hi : i.HasNumber displacement)
    (h : AddressText text rs2 displacement rs1) :
    GivenText opcode .address (.rs1Rs2Imm rs1 rs2 i) text

/-! ### Single operands -/

theorem specText_register_iff {r : Register} :
    SpecText (.register r) text ↔ OperandText .register text (.register r) := by
  constructor
  · rintro ⟨h⟩
    exact .register h
  · rintro ⟨h⟩
    exact .register h

theorem specText_immediate_iff {spec : ImmediateSpec} {i : SizedInt} (h : spec.Means i) :
    SpecText (.immediate spec) text ↔ OperandText .immediate text (.immediate i) := by
  constructor
  · intro htext
    cases htext with
    | immediate hi htext =>
      rw [← h.hasNumber_iff.1 hi]
      exact .immediate htext
  · intro htext
    cases htext with
    | immediate htext => exact .immediate (h.hasNumber_iff.2 rfl) htext

theorem operandText_offset_integer_iff {i : SizedInt} :
    OperandText .offset text (.offset (.integer i)) ↔ i.width = 64 ∧ IntegerText text i.value := by
  constructor
  · intro h
    cases h with
    | number htext => exact ⟨rfl, htext⟩
  · rintro ⟨hwidth, htext⟩
    rw [← SizedInt.full_eq_iff.2 ⟨rfl, hwidth⟩]
    exact .number htext

theorem operandText_offset_label_iff {l : Label} :
    OperandText .offset text (.offset (.label l)) ↔ text = l.name.toList := by
  constructor
  · intro h
    cases h
    rfl
  · rintro rfl
    exact .label l

theorem specText_offset_iff {spec : OffsetSpec} {o : Offset} (h : spec.Means o) :
    SpecText (.offset spec) text ↔ OperandText .offset text (.offset o) := by
  cases h with
  | value hwidth =>
    rw [operandText_offset_integer_iff]
    constructor
    · intro htext
      cases htext with
      | value htext => exact ⟨hwidth, htext⟩
    · exact fun htext => .value htext.2
  | labelText l =>
    rw [operandText_offset_label_iff]
    constructor
    · intro htext
      cases htext
      rfl
    · rintro rfl
      exact .labelText l.name
  | offset =>
    cases o with
    | integer i =>
      rw [operandText_offset_integer_iff]
      constructor
      · intro htext
        cases htext with
        | integer hwidth htext => exact ⟨hwidth, htext⟩
      · exact fun htext => .integer htext.1 htext.2
    | label l =>
      rw [operandText_offset_label_iff]
      constructor
      · intro htext
        cases htext
        rfl
      · rintro rfl
        exact .label l

/-! ### Operands of instructions -/

/-- Some operands are written alike if each of them is. -/
theorem specsText_iff {specs : List OperandSpec} {filled : List (Slot × Operand)}
    (h : List.Forall₂ (fun spec operand => ∀ text,
      SpecText spec text ↔ OperandText operand.1.kind text operand.2) specs filled) :
    SpecsText specs text ↔ PlainText (filled.map Prod.fst) text filled := by
  induction h generalizing text with
  | nil =>
    constructor <;> rintro ⟨⟩ <;> constructor
  | @cons spec operand specs filled hfirst hlater ih =>
    obtain ⟨slot, operand⟩ := operand
    cases hlater with
    | nil =>
      constructor
      · rintro (_ | h)
        exact .last ((hfirst _).1 h)
      · rintro (_ | h)
        exact .last ((hfirst _).2 h)
    | cons =>
      constructor
      · rintro (_ | _ | ⟨h, hcomma, hlater⟩)
        exact .more ((hfirst _).1 h) hcomma (ih.1 hlater)
      · rintro (_ | _ | ⟨h, hcomma, hlater⟩)
        exact .more ((hfirst _).2 h) hcomma (ih.2 hlater)

/-- Operand by operand, what is given is written as what is meant. -/
theorem forall₂_toList {specs : OperandSpecs} {operands : Operands} (h : specs.Mean operands) :
    List.Forall₂ (fun spec operand => ∀ text,
      SpecText spec text ↔ OperandText operand.1.kind text operand.2) specs.toList
      operands.toList := by
  have hregister {r : Register} (text : List Char) :
      SpecText (.register r) text ↔ OperandText .register text (.register r) :=
    specText_register_iff
  cases h with
  | rdRs1Imm _ _ h | rs1Rs2Imm _ _ h =>
    exact .cons hregister (.cons hregister (.cons (fun _ => specText_immediate_iff h) .nil))
  | rdRs1Off _ _ h | rs1Rs2Off _ _ h | rsRtOff _ _ h =>
    exact .cons hregister (.cons hregister (.cons (fun _ => specText_offset_iff h) .nil))
  | rdRs1Rs2 => exact .cons hregister (.cons hregister (.cons hregister .nil))
  | rdImm _ h => exact .cons hregister (.cons (fun _ => specText_immediate_iff h) .nil)
  | rdOff _ h | rsOff _ h => exact .cons hregister (.cons (fun _ => specText_offset_iff h) .nil)
  | rdRs => exact .cons hregister (.cons hregister .nil)
  | noOperands => exact .nil

/-- What is given for the operands of an instruction is written as the operands of the instruction
that is meant. -/
theorem givenText_iff {form : Form} {specs : OperandSpecs} {i : Instruction}
    (h : specs.Mean i.operands) :
    GivenText i.opcode form specs text ↔ OperandsText form i text := by
  have hplain : SpecsText specs.toList text ↔
      PlainText i.opcode.shape.slots text i.operands.toList := by
    rw [specsText_iff (forall₂_toList h), Operands.map_fst_toList, i.shape_operands]
  constructor
  · intro hgiven
    cases hgiven with
    | plain htext => exact .plain (hplain.1 htext)
    | load hload hnumber htext =>
      generalize hoperands : i.operands = operands at h
      cases h with
      | rdRs1Imm _ _ hi =>
        rw [← hi.hasNumber_iff.1 hnumber] at hoperands
        exact .load hload htext hoperands
    | store hstore hnumber htext =>
      generalize hoperands : i.operands = operands at h
      cases h with
      | rs1Rs2Imm _ _ hi =>
        rw [← hi.hasNumber_iff.1 hnumber] at hoperands
        exact .store hstore htext hoperands
  · intro hbuilt
    cases hbuilt with
    | plain htext => exact .plain (hplain.2 htext)
    | load hload htext hoperands =>
      rw [hoperands] at h
      cases h with
      | rdRs1Imm _ _ hi => exact .load hload (hi.hasNumber_iff.2 rfl) htext
    | store hstore htext hoperands =>
      rw [hoperands] at h
      cases h with
      | rs1Rs2Imm _ _ hi => exact .store hstore (hi.hasNumber_iff.2 rfl) htext

end RiscvDialect.Assembly.Grammar

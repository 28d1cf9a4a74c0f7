import Mathlib.Tactic.TFAE
import RiscvDialect.Proofs.Assembly.RoundTrip
import RiscvDialect.Proofs.Generic.RoundTrip

/-!
# The checks of labels and directives

A label and a directive are checked when they are built, so that the formats can carry what was
built. They could carry nothing else: a name that is refused as a label is read as this label by no
reader, and a name and a value that are refused as a directive are read as this directive by none.

## Main definitions

* `Label.parameter`, `Label.definition`, `Label.jump`: texts in which a name stands for a label
* `Directive.line`, `Directive.genericText`: texts in which a name and a value stand for a directive
* `Directive.FitsLine`: what a line can carry

## Main statements

* `Directive.parseOp_genericText`: the generic format asks the check of directives and nothing else
* `checked_iff_carried`: what is accepted when it is built is what the formats carry
-/

namespace RiscvDialect

open Generic Generic.Grammar Text

/-! ### Labels -/

namespace Label

/-- A name as the parameter of an attribute. -/
def parameter (name : String) : String :=
  "!" ++ ParameterKind.label.name ++ ParameterKind.bracket name

/-- A name as a statement that defines a label. -/
def definition (name : String) : String :=
  name ++ ":"

/-- A name as the offset of a jump. -/
def jump (name : String) : String :=
  "jal ra, " ++ name

/-- The name of a label, wherever it stands, is read as the label. -/
theorem parse_name (l : Label) :
    parseAttribute .riscv (parameter l.name) = .ok (.label l) ∧
      Assembly.parse .riscv (definition l.name) = .ok [.label l] ∧
      Assembly.parse .riscv (jump l.name) =
        .ok [.instruction ⟨.jal, .rdOff ⟨1⟩ (.label l), rfl⟩] := by
  refine ⟨parseAttribute_generic (.label l), ?_, ?_⟩
  · have htext : (definition l.name).toList = l.name.toList ++ [':'] := by simp [definition]
    exact Assembly.parse_of_isCode (htext ▸ Assembly.isCode_label l)
      (htext ▸ Assembly.readCode_label Registry.knowsDialect_riscv l)
  · -- with the return address in `ra`, this is how the jump is written
    let i : Instruction := ⟨.jal, .rdOff ⟨1⟩ (.label l), rfl⟩
    exact Assembly.parse_of_isCode (Assembly.isCode_instruction .abi i)
      (Assembly.readCode_instruction Registry.knowsDialect_riscv .abi i)

theorem ofName_eq_ok {name : String} {l : Label} : ofName name = .ok l ↔ l.name = name := by
  constructor
  · exact name_of_ofName
  · rintro rfl
    exact l.ofName_name

theorem exists_name_eq_iff {name : String} : (∃ l : Label, l.name = name) ↔ isSymbol name.toList :=
  ⟨fun ⟨l, h⟩ => h ▸ l.isSymbol_name, fun h => ⟨⟨name, h⟩, rfl⟩⟩

end Label

/-! ### Directives -/

namespace Directive

/-- A name and a value as a statement. -/
def line (name value : String) : String :=
  if value.isEmpty then "." ++ name else "." ++ name ++ " " ++ value

/-- What it takes for a line to carry a name and a value: the name ends where its symbol does, and
nothing in the value ends the line, is cut off from it, or makes it something else than a
directive. -/
def FitsLine (name value : String) : Prop :=
  isSymbol name.toList ∧ ('\n' ∉ value.toList ∧ '\r' ∉ value.toList) ∧
    trim value.toList = value.toList ∧ value.toList.head? ≠ some ':' ∧
    uncommented value.toList = value.toList

theorem exists_name_value_eq_iff {name value : String} :
    (∃ d : Directive, d.name = name ∧ d.value = value) ↔ FitsLine name value := by
  constructor
  · rintro ⟨d, rfl, rfl⟩
    exact Assembly.of_defect?_eq_none d.defect?_eq_none
  · rintro ⟨hname, ⟨hnewline, hreturn⟩, htrim, hcolon, hhash⟩
    have hdefect : defect? name value = none := by
      simp [defect?, hname, hnewline, hreturn, htrim, hcolon, hhash]
    exact ⟨⟨name, value, hdefect⟩, rfl, rfl⟩

/-- A name and a value by the keys of a directive. -/
def dictionary (name value : String) : Dictionary :=
  [("directive", .string name), ("value", .string value)]

/-- A name and a value as an op of the generic format. -/
def genericText (name value : String) : String :=
  quote opName ++ "() " ++ Dictionary.generic (dictionary name value)

/-- The name and the value of a directive are read from their line. -/
theorem parse_name_value (d : Directive) :
    Assembly.parse .riscv (line d.name d.value) = .ok [.directive d] :=
  Assembly.parse_of_isCode (Assembly.isCode_directive d)
    (Assembly.readCode_directive Registry.knowsDialect_riscv d)

theorem readDictionary_dictionary (name value : String) :
    readDictionary .riscv (skipBlank (' ' :: (dictionary name value).generic.toList)) =
      .ok (dictionary name value, []) := by
  have hne : dictionary name value ≠ [] := List.cons_ne_nil _ _
  have hentries := dictionaryText_generic hne []
  rw [List.append_nil, ← Registry.knows_riscv] at hentries
  obtain ⟨later, hhead⟩ := hentries.head
  rw [hhead, (blank_space _).skipBlank_eq_cons (by decide), ← hhead]
  exact readDictionary_of_dictionaryText hentries

theorem readOp_genericText (name value : String) :
    readOp .riscv (genericText name value).toList =
      (Fault.ofRefusal (genericText name value).toList
        (Op.directive <$> ofNameValue name value)).map fun op => (op, []) := by
  have hname : StringText (genericText name value).toList opName
      ('(' :: ')' :: ' ' :: (dictionary name value).generic.toList) := by
    simpa [genericText] using stringText_quote opName _
  exact readOp_eq hname (Registry.knowsDialect_riscv.op?_eq .directive) (.nothing _) (.nothing _)
    (readDictionary_dictionary name value)

/-- In the generic format any name and any value can be written, and what is left to decide is if
they are those of a directive. If not, the op is refused where it starts. -/
theorem parseOp_genericText (name value : String) :
    parseOp .riscv (genericText name value) = match ofNameValue name value with
      | .ok d => .ok (.directive d)
      | .error e => .error ⟨.start, .refused e⟩ := by
  have hread := readOp_genericText name value
  have htext : (genericText name value).toList = '"' :: (genericText name value).toList.tail := by
    simp [genericText, quote]
  cases h : ofNameValue name value with
  | ok d =>
    rw [h] at hread
    exact parseWhole_of_isSolid htext (by decide) hread rfl
  | error e =>
    rw [h] at hread
    rw [parseOp, parseWhole_of_error htext (by decide) hread]
    simp [Fault.report]

end Directive

/-! ### Both -/

/-- A name is accepted as a label exactly if it is a symbol, and exactly if it is read as this
label, be it as a parameter, as a definition, or as the offset of a jump. A name and a value are
accepted as a directive exactly if they fit a line, and exactly if they are read as this directive,
be it from a line or in the generic format, which has no op for them otherwise. -/
theorem checked_iff_carried :
    (∀ name, List.TFAE [
      ∃ l, Label.ofName name = .ok l,
      isSymbol name.toList,
      ∃ l : Label, l.name = name ∧ parseAttribute .riscv (Label.parameter name) = .ok (.label l),
      ∃ l : Label, l.name = name ∧
        Assembly.parse .riscv (Label.definition name) = .ok [.label l],
      ∃ (l : Label) (i : Instruction), l.name = name ∧
        Assembly.parse .riscv (Label.jump name) = .ok [.instruction i] ∧
        i.opcode = .jal ∧ i.operands.offset = some (.label l)]) ∧
    ∀ name value, List.TFAE [
      ∃ d, Directive.ofNameValue name value = .ok d,
      Directive.FitsLine name value,
      ∃ d : Directive, d.name = name ∧ d.value = value ∧
        Assembly.parse .riscv (Directive.line name value) = .ok [.directive d],
      ∃ d : Directive, d.name = name ∧ d.value = value ∧
        parseOp .riscv (Directive.genericText name value) = .ok (.directive d),
      ∃ op, parseOp .riscv (Directive.genericText name value) = .ok op] := by
  refine ⟨fun name => ?_, fun name value => ?_⟩
  · simp only [Label.ofName_eq_ok]
    tfae_have 1 ↔ 2 := Label.exists_name_eq_iff
    tfae_have 1 → 3 := fun ⟨l, h⟩ => ⟨l, h, h ▸ l.parse_name.1⟩
    tfae_have 1 → 4 := fun ⟨l, h⟩ => ⟨l, h, h ▸ l.parse_name.2.1⟩
    tfae_have 1 → 5 := fun ⟨l, h⟩ => ⟨l, _, h, h ▸ l.parse_name.2.2, rfl, rfl⟩
    tfae_have 3 → 1 := fun ⟨l, h, _⟩ => ⟨l, h⟩
    tfae_have 4 → 1 := fun ⟨l, h, _⟩ => ⟨l, h⟩
    tfae_have 5 → 1 := fun ⟨l, _, h, _⟩ => ⟨l, h⟩
    tfae_finish
  · simp only [Directive.ofNameValue_eq_ok]
    tfae_have 1 ↔ 2 := Directive.exists_name_value_eq_iff
    tfae_have 1 → 3 := by
      rintro ⟨d, rfl, rfl⟩
      exact ⟨d, rfl, rfl, d.parse_name_value⟩
    tfae_have 1 → 4 := by
      rintro ⟨d, rfl, rfl⟩
      exact ⟨d, rfl, rfl, by rw [Directive.parseOp_genericText, Directive.ofNameValue_name_value]⟩
    tfae_have 3 → 1 := fun ⟨d, hname, hvalue, _⟩ => ⟨d, hname, hvalue⟩
    tfae_have 4 → 5 := fun ⟨d, _, _, h⟩ => ⟨_, h⟩
    tfae_have 5 → 1 := by
      rintro ⟨op, h⟩
      rw [Directive.parseOp_genericText] at h
      split at h
      · next d hd => exact ⟨d, Directive.ofNameValue_eq_ok.1 hd⟩
      · simp at h
    tfae_finish

end RiscvDialect

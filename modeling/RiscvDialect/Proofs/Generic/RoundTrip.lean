import RiscvDialect.Generic.Printer
import RiscvDialect.Proofs.Generic.Completeness
import RiscvDialect.Proofs.Registry

/-!
# What is written in the generic format is read back

Each writer keeps to the grammar, with its own argument as the meaning and whatever comes after it
left over. That the readers give the argument back is then no longer a matter of the writers.

## Main statements

* `valueText_generic`, `dictionaryText_generic`, `opText_generic`, `opsText_join`: the writers keep
  to the grammar
* `readAttribute_generic_iff`: values are read back, also in front of other text
* `parse_generic`: programs and single ops are read back
* `parseProgram_riscv_eq_ok`: the texts that the dialect reads as a program
-/

namespace RiscvDialect.Generic.Grammar

open Text

/-! ### Tokens -/

theorem stringBody_escapeChar {text value rest : List Char} (c : Char)
    (h : StringBody text value rest) : StringBody (escapeChar c ++ text) (c :: value) rest := by
  rw [escapeChar]
  split
  · subst c; exact .escape (by decide) h
  · split
    · subst c; exact .escape (by decide) h
    · split
      · subst c; exact .escape (by decide) h
      · split
        · subst c; exact .escape (by decide) h
        · next hquote hbackslash _ _ => exact .plain hquote hbackslash h

theorem stringBody_flatMap_escapeChar (s rest : List Char) :
    StringBody (s.flatMap escapeChar ++ '"' :: rest) s rest := by
  induction s with
  | nil => exact .close rest
  | cons c s ih =>
    rw [List.flatMap_cons, List.append_assoc]
    exact stringBody_escapeChar c ih

theorem stringText_quote (s : String) (rest : List Char) :
    StringText ((quote s).toList ++ rest) s rest := by
  have h := StringText.quoted (stringBody_flatMap_escapeChar s.toList rest)
  rw [String.ofList_toList] at h
  simpa [quote] using h

theorem digitsText_toDigits (n : Nat) (rest : List Char) :
    DigitsText (Nat.toDigits 10 n ++ rest) n rest := by
  have h := DigitsText.digits Nat.toDigits_ne_nil
    (fun _ => Numeral.isDigit_of_mem_toDigits (n := n)) rest
  rwa [Numeral.ofDecimalDigits_toDigits] at h

theorem integerText_toString (i : Int) (rest : List Char) :
    IntegerText ((toString i).toList ++ rest) i rest := by
  have hdigits := digitsText_toDigits i.natAbs rest
  rw [Numeral.toList_toString]
  split
  · next hpos =>
    have h := IntegerText.nonneg hdigits
    rwa [Int.natAbs_of_nonneg hpos] at h
  · next hneg =>
    have h := IntegerText.neg hdigits
    rwa [show -(i.natAbs : Int) = i by omega] at h

/-! ### Values and dictionaries -/

/-- One space is blank. -/
theorem blank_space (text : List Char) : Blank (' ' :: text) text :=
  .space (by decide) (.nothing text)

theorem valueText_sizedInt {known : Registration → Prop} (i : SizedInt) (rest : List Char) :
    ValueText known (i.generic.toList ++ rest) (.integer i) rest := by
  have hwidth := digitsText_toDigits i.width rest
  have h : ValueText known _ (.integer i) rest :=
    .integer (integerText_toString i.value.toInt _) (blank_space _) (blank_space _) hwidth
  simpa [SizedInt.generic] using h

/-- An attribute is written as a parameter if the parameter stands for it. -/
theorem valueText_parameter {kind : ParameterKind} {parameter : String} {value : Attribute}
    (h : ParameterText kind parameter.toList value) (rest : List Char) :
    ValueText Registration.InDialect
      (("!" ++ kind.name ++ ParameterKind.bracket parameter).toList ++ rest) value rest := by
  have hname : kind.name.toList ≠ [] := by cases kind <;> decide
  have hchars : ∀ c ∈ kind.name.toList, isAttributeNameChar c :=
    List.all_eq_true.1 (by cases kind <;> decide)
  have hknown : Registration.InDialect (.attr (String.ofList kind.name.toList) kind) :=
    String.ofList_toList
  simpa [ParameterKind.bracket] using ValueText.parameter hname hchars hknown h rest

theorem valueText_generic (value : Attribute) (rest : List Char) :
    ValueText Registration.InDialect (value.generic.toList ++ rest) value rest := by
  cases value with
  | register r =>
    have hname := RegisterStyle.named_write .abi r
    rw [← String.ofList_toList (s := RegisterStyle.write .abi r)] at hname
    exact valueText_parameter (.register hname) rest
  | label l => exact valueText_parameter (.label l) rest
  | integer i => exact valueText_sizedInt i rest
  | string s => exact .string (stringText_quote s rest)

theorem entryText_entryText (entry : String × Attribute) (rest : List Char) :
    EntryText Registration.InDialect ((Dictionary.entryText entry).toList ++ rest) entry rest := by
  obtain ⟨key, value⟩ := entry
  have h := EntryText.keyed (stringText_quote key _) (blank_space _) (blank_space _)
    (valueText_generic value rest) (.nothing rest)
  simpa [Dictionary.entryText] using h

theorem entriesText_intercalate {entries : Dictionary} (hne : entries ≠ []) (rest : List Char) :
    EntriesText Registration.InDialect
      ((", ".intercalate (entries.map Dictionary.entryText)).toList ++ '}' :: rest) entries
      rest := by
  induction entries with
  | nil => exact absurd rfl hne
  | cons entry later ih =>
    cases later with
    | nil =>
      rw [List.map_singleton, String.intercalate_singleton]
      exact .last (entryText_entryText entry _)
    | cons next later =>
      have h := EntriesText.more (entryText_entryText entry _) (blank_space _) (ih (by simp))
      rw [List.map_cons, List.map_cons, String.intercalate_cons_cons, String.toList_append,
        String.toList_append, List.append_assoc, List.append_assoc]
      exact h

theorem dictionaryText_generic {entries : Dictionary} (hne : entries ≠ []) (rest : List Char) :
    DictionaryText Registration.InDialect ((Dictionary.generic entries).toList ++ rest) entries
      rest := by
  have h := DictionaryText.entries (.nothing _) (entriesText_intercalate hne rest)
  simpa [Dictionary.generic] using h

/-! ### Ops and programs -/

/-- The name of an op is a name for ops of its kind. -/
theorem opNamed_name (op : Op) : OpNamed op.name op.kind := by
  cases op with
  | instruction i => exact .catalog i.opcode
  | label => exact .label
  | directive => exact .directive

theorem opText_generic (op : Op) (rest : List Char) :
    OpText Registration.InDialect (op.generic.toList ++ rest) op rest := by
  have hname := stringText_quote op.name
  by_cases hempty : op.attributes = []
  · have hop : Denotes Registration.InDialect op.name [] op := ⟨opNamed_name op, by simp [hempty]⟩
    have h := OpText.bare (hname _) (.nothing _) (.nothing (')' :: rest)) hop
    simpa [Op.generic, hempty] using h
  · have hop : Denotes Registration.InDialect op.name op.attributes op := ⟨opNamed_name op, .rfl⟩
    have h := OpText.withDictionary (hname _) (.nothing _) (.nothing (')' :: _)) (blank_space _)
      (dictionaryText_generic hempty rest) hop
    simpa [Op.generic, hempty] using h

/-- An op stands on a line of its own, after two spaces. -/
theorem opsText_join (p : Program) (rest : List Char) :
    ∃ opsText, Blank ((String.join (p.map fun op => "  " ++ op.generic ++ "\n")).toList ++
        '}' :: rest) opsText ∧
      OpsText Registration.InDialect opsText p rest := by
  induction p with
  | nil => exact ⟨'}' :: rest, by simpa using .nothing _, .close rest⟩
  | cons op later ih =>
    obtain ⟨laterText, hblank, hlater⟩ := ih
    have hop := OpsText.op (opText_generic op _) (.space (c := '\n') (by decide) hblank) hlater
    have hindent := fun text => (blank_space (' ' :: text)).trans (blank_space text)
    refine ⟨_, ?_, hop⟩
    simpa [String.toList_join] using hindent _

/-! ### Values in front of other text -/

/-- The type of an integer is read as far as there are digits. -/
theorem stops_of_readWidth {text rest : List Char} {width : Nat}
    (h : readWidth text = .ok (width, rest)) : Stops Char.isDigit rest := by
  unfold readWidth at h
  split at h
  · split at h
    · next hdigits =>
      split at h
      · cases h
        obtain ⟨digits, -, -, hstops, -⟩ := Numeral.readDecimalNat_eq_some.1 hdigits
        exact hstops
      · simp at h
    · simp [Fault.expected] at h
  · simp [Fault.expected] at h

theorem stops_of_readSizedInt {text rest : List Char} {i : SizedInt}
    (h : readSizedInt text = .ok (i, rest)) : Stops Char.isDigit rest := by
  rw [readSizedInt] at h
  split at h
  · simp [Fault.expected] at h
  · split at h
    · simp at h
    · obtain ⟨afterColon, -, h⟩ := Except.bind_eq_ok.1 h
      obtain ⟨⟨width, afterWidth⟩, hwidth, h⟩ := Except.bind_eq_ok.1 h
      obtain ⟨j, -, h⟩ := Except.bind_eq_ok.1 h
      cases h
      exact stops_of_readWidth hwidth

/-- Further digits after an integer would be read as a part of its width. -/
theorem stops_of_readAttribute_sizedInt {registry : Registry} {i : SizedInt} {rest : List Char}
    (h : readAttribute registry (i.generic.toList ++ rest) = .ok (.integer i, rest)) :
    Stops Char.isDigit rest := by
  have hnumber := integerText_toString i.value.toInt (" : i".toList ++
    ((toString i.width).toList ++ rest))
  have htext : i.generic.toList ++ rest = (toString i.value.toInt).toList ++
      (" : i".toList ++ ((toString i.width).toList ++ rest)) := by
    simp [SizedInt.generic]
  rw [htext, readAttribute_of_integerText hnumber] at h
  obtain ⟨⟨j, left⟩, hread, heq⟩ := Except.map_eq_ok.1 h
  cases heq
  exact stops_of_readSizedInt hread

theorem readAttribute_generic_append (value : Attribute) {rest : List Char}
    (hrest : value.kind = .integer → Stops Char.isDigit rest) :
    readAttribute .riscv (value.generic.toList ++ rest) = .ok (value, rest) := by
  have htext := valueText_generic value rest
  rw [← Registry.knows_riscv] at htext
  exact readAttribute_of_valueText htext hrest

theorem parseAttribute_generic (value : Attribute) :
    parseAttribute .riscv value.generic = .ok value := by
  have hread := readAttribute_generic_append value fun _ => stops_nil
  obtain ⟨c, later, htext, hc⟩ := (valueText_generic value []).head
  rw [List.append_nil] at hread htext
  exact parseWhole_of_isSolid htext hc hread rfl

/-- The text of a value says itself where it ends. In front of any other text the value is read back
and exactly the other text is left; an integer is the one value that a digit could continue. So a
whole text that was written for a value is read back as well. -/
theorem readAttribute_generic_iff (value : Attribute) :
    (∀ rest, readAttribute .riscv (value.generic.toList ++ rest) = .ok (value, rest) ↔
      value.kind ≠ .integer ∨ Stops Char.isDigit rest) ∧
    parseAttribute .riscv value.generic = .ok value := by
  refine ⟨fun rest => ⟨fun h => ?_, fun h => ?_⟩, parseAttribute_generic value⟩
  · cases value with
    | integer i => exact .inr (stops_of_readAttribute_sizedInt h)
    | _ => exact .inl (by simp [Attribute.kind])
  · exact readAttribute_generic_append value fun hkind => h.resolve_left fun hne => hne hkind

/-! ### Whole texts -/

/-- The dialect reads a text as a program exactly if the grammar has the text for the program. -/
theorem parseProgram_riscv_eq_ok {text : String} {p : Program} :
    parseProgram .riscv text = .ok p ↔ ProgramText Registration.InDialect text.toList p := by
  rw [parseProgram_eq_ok, Registry.knows_riscv]

theorem readProgram_generic (p : Program) : readProgram .riscv p.generic.toList = .ok (p, []) := by
  obtain ⟨opsText, hblank, hops⟩ := opsText_join p []
  rw [← Registry.knows_riscv] at hops
  have hread := readProgram_of_opsText (blank_space _) (.space (c := '\n') (by decide) hblank) hops
  simpa [Program.generic] using hread

theorem parseProgram_generic (p : Program) : parseProgram .riscv p.generic = .ok p :=
  parseWhole_of_isSolid (c := 'm') (by simp [Program.generic]; rfl) (by decide)
    (readProgram_generic p) rfl

theorem readOp_generic (op : Op) : readOp .riscv op.generic.toList = .ok (op, []) := by
  have htext := opText_generic op []
  rw [List.append_nil, ← Registry.knows_riscv] at htext
  cases htext with
  | bare hname hopen hclose hop =>
    exact readOp_of_bare hname hopen hclose hop (by simp [skipBlank, skipBlankFrom])
  | withDictionary hname hopen hclose hblank hentries hop =>
    exact readOp_of_dictionaryText hname hopen hclose hblank hentries hop

theorem parseOp_generic (op : Op) : parseOp .riscv op.generic = .ok op := by
  obtain ⟨later, hquote⟩ := (opText_generic op []).head
  rw [List.append_nil] at hquote
  exact parseWhole_of_isSolid hquote (by decide) (readOp_generic op) rfl

/-- Programs and single ops are read back from what is written for them. -/
theorem parse_generic (p : Program) :
    parseProgram .riscv p.generic = .ok p ∧ ∀ op : Op, parseOp .riscv op.generic = .ok op :=
  ⟨parseProgram_generic p, parseOp_generic⟩

end RiscvDialect.Generic.Grammar

import RiscvDialect.Proofs.Assembly.Statement

/-!
# Programs in assembly are read back

A program is written with one statement on each line, so what is left to show is that the lines give
the statements back: no statement contains a newline or the start of a comment, and none has white
space at its ends that a reader would take off. The indentation is white space of any kind. It may
contain line breaks; these only add blank lines.

## Main definitions

* `IsCode`: a statement that a line gives back

## Main statements

* `isCode_code`: the statements of ops are such
* `parse_of_isCode`: a statement with a text to itself
* `codes_assembly`: the statements of a program that was written
* `parse_assembly`: programs are read back with wide integers
-/

namespace RiscvDialect.Assembly

open Text

/-! ### Characters of statements -/

/-- The characters of operands. -/
def IsOperandChar (c : Char) : Prop :=
  isSymbolChar c ∨ c ∈ ['-', '(', ')']

/-- The characters of statements, apart from the values of directives. -/
def IsPlain (c : Char) : Prop :=
  IsOperandChar c ∨ c ∈ [' ', ',', ':']

instance (c : Char) : Decidable (IsOperandChar c) :=
  inferInstanceAs (Decidable (_ ∨ _))

instance (c : Char) : Decidable (IsPlain c) :=
  inferInstanceAs (Decidable (_ ∨ _))

/-- No operand contains white space. -/
theorem IsOperandChar.not_isSpace {c : Char} (h : IsOperandChar c) : isSpace c = false := by
  rcases h with h | h
  · have hbounds := toNat_of_isSymbolChar h
    simp only [isSpace, Bool.or_eq_false_iff, Bool.and_eq_false_iff, decide_eq_false_iff_not,
      beq_eq_false_iff_ne]
    omega
  · simp only [List.mem_cons, List.not_mem_nil, or_false] at h
    rcases h with rfl | rfl | rfl <;> decide

/-- Plain characters mean nothing to the cutting of lines and comments. -/
theorem IsPlain.ne {c : Char} (h : IsPlain c) : c ≠ '#' ∧ c ≠ '"' ∧ c ≠ '\n' := by
  refine ⟨?_, ?_, ?_⟩ <;> rintro rfl <;> exact absurd h (by decide)

theorem isOperandChar_of_mem_toString {i : Int} {c : Char} (h : c ∈ (toString i).toList) :
    IsOperandChar c := by
  have hdigit : ∀ {d}, d ∈ Nat.toDigits 10 i.natAbs → IsOperandChar d := fun hd =>
    .inl (by simp [isSymbolChar, Numeral.isDigit_of_mem_toDigits hd])
  rw [Numeral.toList_toString] at h
  split at h
  · exact hdigit h
  · rcases List.mem_cons.1 h with rfl | h
    · decide
    · exact hdigit h

theorem isOperandChar_of_mem_write {style : RegisterStyle} {r : Register} {c : Char}
    (h : c ∈ (style.write r).toList) : IsOperandChar c :=
  .inl (isSymbolChar_of_isAlphanum (style.isAlphanum_of_mem_write r h))

theorem isOperandChar_of_mem_assembly {style : RegisterStyle} {operand : Operand} {c : Char}
    (h : c ∈ (operand.assembly style).toList) : IsOperandChar c := by
  rcases operand with r | i | (i | l)
  · exact isOperandChar_of_mem_write h
  · exact isOperandChar_of_mem_toString h
  · exact isOperandChar_of_mem_toString h
  · exact .inl (isSymbolChar_of_mem l.isSymbol_name h)

theorem isOperandChar_of_mem_operandTexts {style : RegisterStyle} {i : Instruction} {text : String}
    (h : text ∈ i.operandTexts style) : ∀ c ∈ text.toList, IsOperandChar c := by
  intro c hc
  by_cases hmemory : i.opcode.isMemory
  · obtain ⟨value, base, displacement, htexts, -⟩ := operandTexts_of_isMemory style hmemory
    rw [htexts, List.mem_pair] at h
    rcases h with rfl | rfl
    · exact isOperandChar_of_mem_write hc
    · simp only [Instruction.addressText, String.toList_append, List.mem_append] at hc
      rcases hc with ((hc | hc) | hc) | hc
      · exact isOperandChar_of_mem_toString hc
      · exact .inr (by simp_all)
      · exact isOperandChar_of_mem_write hc
      · exact .inr (by simp_all)
  · rw [operandTexts_of_not_isMemory (Bool.eq_false_iff.2 hmemory)] at h
    obtain ⟨filled, -, rfl⟩ := List.mem_map.1 h
    exact isOperandChar_of_mem_assembly hc

/-- What holds of the characters of some texts holds of these texts with commas between them, if it
holds of the commas and spaces too. -/
theorem forall_mem_intercalate {P : Char → Prop} {texts : List String}
    (htexts : ∀ text ∈ texts, ∀ c ∈ text.toList, P c) (hcomma : P ',') (hspace : P ' ') :
    ∀ c ∈ (", ".intercalate texts).toList, P c := by
  induction texts with
  | nil => simp
  | cons text later ih =>
    have hlater := ih fun t ht => htexts t (List.mem_cons_of_mem _ ht)
    cases later with
    | nil => simpa using htexts text List.mem_cons_self
    | cons next later =>
      intro c hc
      rw [String.intercalate_cons_cons, String.toList_append, String.toList_append,
        List.append_assoc, List.mem_append, List.mem_append] at hc
      rcases hc with hc | hc | hc
      · exact htexts text List.mem_cons_self c hc
      · have : c = ',' ∨ c = ' ' := by simpa using hc
        rcases this with rfl | rfl
        · exact hcomma
        · exact hspace
      · exact hlater c hc

/-! ### Where a statement ends -/

/-- The text ends with a character that no reader takes off. -/
def EndsSolid (text : List Char) : Prop :=
  ∃ init c, text = init ++ [c] ∧ isSpace c = false

theorem EndsSolid.append {text : List Char} (h : EndsSolid text) (before : List Char) :
    EndsSolid (before ++ text) := by
  obtain ⟨init, c, rfl, hc⟩ := h
  exact ⟨before ++ init, c, by simp, hc⟩

theorem EndsSolid.ne_nil {text : List Char} (h : EndsSolid text) : text ≠ [] := by
  obtain ⟨init, c, rfl, -⟩ := h
  simp

theorem EndsSolid.stops_reverse {text : List Char} (h : EndsSolid text) :
    Stops isSpace text.reverse := by
  obtain ⟨init, c, rfl, hc⟩ := h
  simpa using hc

theorem endsSolid_of_stops_reverse {text : List Char} (hne : text ≠ [])
    (h : Stops isSpace text.reverse) : EndsSolid text := by
  obtain ⟨init, c, rfl⟩ := (List.eq_nil_or_concat text).resolve_left hne
  rw [List.concat_eq_append] at h ⊢
  exact ⟨init, c, rfl, by simpa using h⟩

theorem endsSolid_of_isOperandChar {text : List Char} (hne : text ≠ [])
    (h : ∀ c ∈ text, IsOperandChar c) : EndsSolid text := by
  obtain ⟨init, c, rfl⟩ := (List.eq_nil_or_concat text).resolve_left hne
  rw [List.concat_eq_append] at h ⊢
  exact ⟨init, c, rfl, (h c (by simp)).not_isSpace⟩

theorem endsSolid_of_isSymbol {name : List Char} (h : isSymbol name) : EndsSolid name := by
  have hchars : ∀ c ∈ name, IsOperandChar c := fun _ hc => .inl (isSymbolChar_of_mem h hc)
  obtain ⟨c, later, rfl, -⟩ := exists_eq_cons_of_isSymbol h
  exact endsSolid_of_isOperandChar (by simp) hchars

/-- Texts with commas between them end as the last of them does. -/
theorem endsSolid_intercalate {texts : List String} (htexts : ∀ text ∈ texts, EndsSolid text.toList)
    (hne : texts ≠ []) : EndsSolid (", ".intercalate texts).toList := by
  induction texts with
  | nil => exact absurd rfl hne
  | cons text later ih =>
    cases later with
    | nil => simpa using htexts text List.mem_cons_self
    | cons next later =>
      rw [String.intercalate_cons_cons, String.toList_append]
      exact (ih (fun t ht => htexts t (List.mem_cons_of_mem _ ht)) (by simp)).append _

theorem endsSolid_spaced {text : List Char} {before : List Char} (hbefore : EndsSolid before)
    (htext : text ≠ [] → EndsSolid text) : EndsSolid (before ++ spaced text) := by
  cases text with
  | nil => simpa [spaced] using hbefore
  | cons c text => exact ((htext (by simp)).append [' ']).append before

/-! ### Statements on their lines -/

/-- A statement that is given back by the line that it stands on. -/
structure IsCode (code : List Char) : Prop where
  ne_nil : code ≠ []
  codeOf_eq : codeOf code = code
  newline_notMem : '\n' ∉ code
  stops_reverse : Stops isSpace code.reverse

/-- A statement has a plain part, and after it maybe a part that was checked for comments and
newlines. -/
theorem isCode_append {plain checked : List Char}
    (hplain : ∀ c ∈ plain, c ≠ '#' ∧ c ≠ '"' ∧ c ≠ '\n') (hchecked : uncommented checked = checked)
    (hnewline : '\n' ∉ checked) (hstart : Stops isSpace (plain ++ checked))
    (hend : EndsSolid (plain ++ checked)) : IsCode (plain ++ checked) where
  ne_nil := hend.ne_nil
  codeOf_eq := by
    have hspecial : ∀ c ∈ plain, c ≠ '#' ∧ c ≠ '"' := fun c hc =>
      ⟨(hplain c hc).1, (hplain c hc).2.1⟩
    rw [codeOf, uncommented_append hspecial, hchecked, trim_eq_self_iff]
    exact ⟨hstart, hend.stops_reverse⟩
  newline_notMem := by
    rw [List.mem_append, not_or]
    exact ⟨fun h => (hplain _ h).2.2 rfl, hnewline⟩
  stops_reverse := hend.stops_reverse

theorem isCode_of_chars {code : List Char} (hplain : ∀ c ∈ code, c ≠ '#' ∧ c ≠ '"' ∧ c ≠ '\n')
    (hstart : Stops isSpace code) (hend : EndsSolid code) : IsCode code := by
  rw [← List.append_nil code] at hstart hend ⊢
  exact isCode_append hplain rfl (by simp) hstart hend

theorem isCode_of_isPlain {code : List Char} (hplain : ∀ c ∈ code, IsPlain c)
    (hstart : Stops isSpace code) (hend : EndsSolid code) : IsCode code :=
  isCode_of_chars (fun c hc => (hplain c hc).ne) hstart hend

theorem isPlain_of_mem_symbol {name : List Char} (h : isSymbol name) {c : Char} (hc : c ∈ name) :
    IsPlain c :=
  .inl (.inl (isSymbolChar_of_mem h hc))

theorem stops_isSpace_of_isSymbol {name : List Char} (h : isSymbol name) (rest : List Char) :
    Stops isSpace (name ++ rest) := by
  obtain ⟨c, later, rfl, hc, -⟩ := exists_eq_cons_of_isSymbol h
  have hchar : IsOperandChar c := .inl (isSymbolChar_of_isSymbolStart hc)
  simpa using hchar.not_isSpace

theorem isCode_label (l : Label) : IsCode (l.name.toList ++ [':']) := by
  refine isCode_of_isPlain ?_ (stops_isSpace_of_isSymbol l.isSymbol_name _)
    ⟨l.name.toList, ':', rfl, by decide⟩
  intro c hc
  rcases List.mem_append.1 hc with hc | hc
  · exact isPlain_of_mem_symbol l.isSymbol_name hc
  · exact .inr (by simp_all)

theorem mem_spaced {text : List Char} {c : Char} (h : c ∈ spaced text) : c = ' ' ∨ c ∈ text := by
  cases text with
  | nil => simp [spaced] at h
  | cons d text => exact List.mem_cons.1 h

theorem isCode_instruction (style : RegisterStyle) (i : Instruction) :
    IsCode (i.statement style).toList := by
  have hsymbol := isSymbol_mnemonic i.opcode
  rw [toList_instruction_statement]
  refine isCode_of_isPlain ?_ (stops_isSpace_of_isSymbol hsymbol _)
    (endsSolid_spaced (endsSolid_of_isSymbol hsymbol) fun hne => ?_)
  · have hoperands : ∀ c ∈ operandsText style i, IsPlain c :=
      forall_mem_intercalate (fun _ ht c hc => .inl (isOperandChar_of_mem_operandTexts ht c hc))
        (by decide) (by decide)
    intro c hc
    rcases List.mem_append.1 hc with hc | hc
    · exact isPlain_of_mem_symbol hsymbol hc
    · rcases mem_spaced hc with rfl | hc
      · decide
      · exact hoperands c hc
  · refine endsSolid_intercalate (fun text ht => ?_) ?_
    · obtain ⟨c, later, hcons, -⟩ := startsOperand_of_mem_operandTexts ht
      exact endsSolid_of_isOperandChar (by simp [hcons]) (isOperandChar_of_mem_operandTexts ht)
    · intro hnil
      simp [operandsText, hnil] at hne

theorem isCode_directive (d : Directive) : IsCode d.statement.toList := by
  obtain ⟨hname, ⟨hnewline, -⟩, htrim, -, hhash⟩ := of_defect?_eq_none d.defect?_eq_none
  have hsymbol := isSymbol_dot_cons hname
  have hplain : ∀ c ∈ '.' :: d.name.toList, IsPlain c := fun _ => isPlain_of_mem_symbol hsymbol
  have hend := endsSolid_spaced (endsSolid_of_isSymbol hsymbol) fun hne =>
    endsSolid_of_stops_reverse hne (trim_eq_self_iff.1 htrim).2
  rw [toList_directive_statement, ← List.cons_append]
  cases hvalue : d.value.toList with
  | nil =>
    rw [hvalue] at hend
    exact isCode_append (fun c hc => (hplain c hc).ne) rfl (by simp [spaced])
      (stops_isSpace_of_isSymbol hsymbol _) hend
  | cons c value =>
    rw [hvalue] at hend hhash hnewline
    -- the space behind the name is plain, and what was checked is the value itself
    have hspaced : '.' :: d.name.toList ++ spaced (c :: value) =
        ('.' :: d.name.toList ++ [' ']) ++ c :: value := by simp [spaced]
    have hplainSpace : ∀ e ∈ '.' :: d.name.toList ++ [' '], IsPlain e := by
      intro e he
      rcases List.mem_append.1 he with he | he
      · exact hplain e he
      · exact .inr (by simp_all)
    have hstart := stops_isSpace_of_isSymbol hsymbol (spaced (c :: value))
    rw [hspaced] at hend hstart ⊢
    exact isCode_append (fun c hc => (hplainSpace c hc).ne) hhash hnewline hstart hend

/-- The statements of ops are given back by their lines. -/
theorem isCode_code (style : RegisterStyle) (op : Op) : IsCode (op.code style) := by
  cases op with
  | instruction i => exact isCode_instruction style i
  | label l => exact isCode_label l
  | directive d => exact isCode_directive d

/-- A statement that has a text to itself is read as a program of one op. -/
theorem parse_of_isCode {registry : Registry} {text : String} {op : Op}
    (hcode : IsCode text.toList) (hread : readCode registry text.toList = .ok op) :
    parse registry text = .ok [op] := by
  rw [parse_eq_ok, codes_of_notMem_newline hcode.newline_notMem, hcode.codeOf_eq,
    if_neg hcode.ne_nil]
  exact .cons hread .nil

/-! ### Programs -/

/-- An op is written as its statement, after nothing but indentation. -/
theorem toList_statement (style : AssemblyStyle) (op : Op) :
    ∃ space : List Char, (∀ c ∈ space, c ∈ style.indent.toList) ∧
      (op.statement style).toList = space ++ op.code style.registers := by
  cases op with
  | instruction i => exact ⟨style.indent.toList, fun _ => id, String.toList_append⟩
  | label l => exact ⟨[], by simp, by simp [Op.statement, Op.code]⟩
  | directive d => exact ⟨[], by simp, rfl⟩

/-- The statements of a program are found on its lines. -/
theorem codes_assembly {style : AssemblyStyle} (hindent : ∀ c ∈ style.indent.toList, isSpace c)
    (p : Program) :
    codes (Program.assembly style p).toList = p.map (Op.code style.registers) := by
  induction p with
  | nil => rfl
  | cons op p ih =>
    obtain ⟨space, hspace, htext⟩ := toList_statement style op
    have hcode := isCode_code style.registers op
    have hassembly : (Program.assembly style (op :: p)).toList =
        space ++ (op.code style.registers ++ '\n' :: (Program.assembly style p).toList) := by
      simp [Program.assembly, String.toList_join, htext]
    rw [hassembly, codes_append_of_isSpace fun c hc => hindent c (hspace c hc),
      codes_append_newline hcode.ne_nil hcode.codeOf_eq hcode.newline_notMem hcode.stops_reverse,
      ih, List.map_cons]

/-- With a registry that knows the dialect, a program that was written is read as one program only:
itself with wide integers. -/
theorem parse_assembly_eq_ok {registry : Registry} (hr : registry.KnowsDialect)
    {style : AssemblyStyle} (hindent : ∀ c ∈ style.indent.toList, isSpace c) {p q : Program} :
    parse registry (Program.assembly style p) = .ok q ↔ q = Program.widen p := by
  rw [parse_eq_ok, codes_assembly hindent, List.forall₂_map_left_iff, Program.widen]
  simp only [readCode_code hr, Except.ok.injEq]
  rw [← List.forall₂_map_left_iff, List.forall₂_eq_eq_eq, eq_comm]

/-- A program is read back from assembly with 64 bits for each of its integers and no other change.
It is the same program exactly if its integers had 64 bits. -/
theorem parse_assembly {style : AssemblyStyle} (hindent : ∀ c ∈ style.indent.toList, isSpace c)
    (p : Program) :
    parse .riscv (Program.assembly style p) = .ok (Program.widen p) ∧
      (parse .riscv (Program.assembly style p) = .ok p ↔ ∀ op ∈ p, op.IsWide) := by
  have hread := fun q => parse_assembly_eq_ok (q := q) Registry.knowsDialect_riscv hindent (p := p)
  refine ⟨(hread _).2 rfl, ?_⟩
  rw [hread, eq_comm, Program.widen_eq_self_iff]

/-- An immediate of 12 bits comes back with 64. -/
theorem parse_assembly_load :
    parse .riscv (Program.assembly { indent := "  " }
        [.label ⟨"loop", by decide⟩,
          .instruction ⟨.lw, .rdRs1Imm ⟨10⟩ ⟨2⟩ ⟨-8, 12, by decide, by decide⟩, rfl⟩]) =
      .ok [.label ⟨"loop", by decide⟩,
        .instruction ⟨.lw, .rdRs1Imm ⟨10⟩ ⟨2⟩ (.full (-8)), rfl⟩] :=
  (parse_assembly (List.all_eq_true.1 (by decide)) _).1

end RiscvDialect.Assembly

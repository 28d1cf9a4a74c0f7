import RiscvDialect.Proofs.Assembly.Grammar.Instruction

/-!
# Lines are read by the grammar

The readers of statements agree with the grammar on every text that has no white space at its end,
which is all that a line is read for. The form of a statement follows from its text, so a statement
has one form and one op.

## Main definitions

* `formOf`: the form of a statement as its text shows it

## Main statements

* `readLabelDefinition_eq_some`: a symbol and a colon
* `StatementText.form_unique`, `StatementText.unique`: a text is a statement in one way at most
* `readCode_eq_ok`: a statement is read exactly if the grammar has it
* `parse_line`: what a line is read as
-/

namespace RiscvDialect.Assembly.Grammar

open Text

variable {text rest : List Char}

/-! ### Labels -/

theorem ColonFollows.stops (h : ColonFollows rest) : Stops isSymbolChar rest := by
  obtain ⟨space, later, hspace, rfl⟩ := h
  exact stops_inline hspace (stops_cons.2 (by decide))

theorem readLabelDefinition_eq_some {l : Label} : readLabelDefinition text = some (l, rest) ↔
    ∃ space, Inline space ∧ text = l.name.toList ++ (space ++ ':' :: rest) := by
  constructor
  · intro h
    rw [readLabelDefinition] at h
    split at h
    · next label afterLabel hlabel =>
      split at h
      · next later hcolon =>
        cases h
        obtain ⟨space, hspace, rfl⟩ := (skipInline_eq_cons (by decide)).1 hcolon
        exact ⟨space, hspace, (readLabel_eq_some.1 hlabel).2⟩
      · simp at h
    · simp at h
  · rintro ⟨space, hspace, rfl⟩
    have hcolon : ColonFollows (space ++ ':' :: rest) := ⟨space, rest, hspace, rfl⟩
    have hskip : skipInline (space ++ ':' :: rest) = ':' :: rest :=
      skipInline_append hspace (stops_cons.2 (by decide))
    rw [readLabelDefinition, readLabel_append l hcolon.stops]
    simp only [hskip]

theorem readLabelDefinition_eq_none_iff :
    readLabelDefinition text = none ↔ ¬ BeginsLabel text := by
  rw [← not_iff_not, not_not, ← ne_eq, Option.ne_none_iff_exists']
  constructor
  · rintro ⟨⟨l, rest⟩, h⟩
    obtain ⟨space, hspace, rfl⟩ := readLabelDefinition_eq_some.1 h
    exact ⟨l.name.toList, _, l.isSymbol_name, rfl, space, rest, hspace, rfl⟩
  · rintro ⟨name, _, hname, rfl, space, rest, hspace, rfl⟩
    refine ⟨(⟨String.ofList name, by simpa using hname⟩, rest), ?_⟩
    exact readLabelDefinition_eq_some.2 ⟨space, hspace, by simp⟩

/-- Behind the longest symbol at its start, a text has the colon of a label or none. -/
theorem beginsLabel_append {name : List Char} (hname : isSymbol name)
    (hrest : Stops isSymbolChar rest) : BeginsLabel (name ++ rest) ↔ ColonFollows rest := by
  constructor
  · rintro ⟨name', rest', hname', heq, hcolon⟩
    have hread := readSymbol_append hname hrest
    rw [heq, readSymbol_append hname' hcolon.stops] at hread
    cases hread
    exact hcolon
  · exact fun hcolon => ⟨name, rest, hname, rfl, hcolon⟩

/-! ### Forms -/

/-- The form of a statement as its text shows it. -/
def formOf (code : List Char) : Form :=
  if (readLabelDefinition code).isSome then .label
  else if code.head? = some '.' then .directive
  else if '(' ∈ code then .address
  else .plain

/-- Addresses have a parenthesis, and other operands have none. -/
theorem OperandsText.form_eq {form : Form} {i : Instruction} {written : List Char}
    (h : OperandsText form i written) : form = if '(' ∈ written then .address else .plain := by
  cases h with
  | plain hplain => rw [if_neg hplain.open_notMem]
  | load _ haddress => rw [if_pos haddress.open_mem]
  | store _ haddress => rw [if_pos haddress.open_mem]

theorem StatementText.form_eq {form : Form} {code : List Char} {op : Op}
    (h : StatementText form code op) : form = formOf code := by
  cases h with
  | @label l space hspace =>
    rw [formOf, readLabelDefinition_eq_some.2 ⟨space, hspace, rfl⟩]
    rfl
  | directive _ _ _ hlabel =>
    rw [formOf, readLabelDefinition_eq_none_iff.2 hlabel]
    rfl
  | @instruction _ mnemonic space operands i hmnemonic hlongest hspace hcolon hoperands =>
    have hlabel := (beginsLabel_append hmnemonic.isSymbol hlongest).not.2 hcolon
    have hopen : '(' ∈ mnemonic ++ (space ++ operands) ↔ '(' ∈ operands := by
      have hname : '(' ∉ mnemonic := fun hmem =>
        absurd (isSymbolChar_of_mem hmnemonic.isSymbol hmem) (by decide)
      simp [hname, hspace.notMem (c := '(') (by decide)]
    rw [formOf, readLabelDefinition_eq_none_iff.2 hlabel, if_neg (hmnemonic.head?_append _)]
    simp only [hopen]
    exact hoperands.form_eq

/-- A text is a statement of one form at most. -/
theorem StatementText.form_unique {f g : Form} {code : List Char} {op op' : Op}
    (h : StatementText f code op) (h' : StatementText g code op') : f = g :=
  h.form_eq.trans h'.form_eq.symm

/-! ### Statements -/

theorem stops_reverse_of_suffix (hend : Stops isSpace text.reverse) (h : rest <:+ text) :
    Stops isSpace rest.reverse := by
  obtain ⟨before, rfl⟩ := h
  cases hrest : rest.reverse with
  | nil => exact stops_nil
  | cons c later => simpa [hrest] using hend

/-- At the end of a text without white space there, no spaces and tabs are left. -/
theorem eq_nil_of_inline (hend : Stops isSpace text.reverse) (h : rest <:+ text)
    (hrest : Inline rest) : rest = [] := by
  cases hreverse : rest.reverse with
  | nil => exact List.reverse_eq_nil_iff.1 hreverse
  | cons c later =>
    have hstops := stops_reverse_of_suffix hend h
    have hc : isInlineSpace c := hrest c (List.mem_reverse.1 (by simp [hreverse]))
    simp [hreverse, isSpace_of_isInlineSpace hc] at hstops

/-- A statement is read if nothing but spaces and tabs is left of it. -/
theorem readCode_iff {κ : Type} {registry : Registry κ} {code : List Char} {op : Op} :
    readCode registry code = .ok op ↔
      ∃ rest, readStatement registry code = .ok (op, rest) ∧ Inline rest := by
  rw [readCode, Except.bind_eq_ok]
  constructor
  · rintro ⟨⟨op', rest⟩, hread, h⟩
    dsimp only at h
    split at h
    · next hskip =>
      cases h
      obtain ⟨space, hspace, hrest, -⟩ := exists_skipInline rest
      rw [hskip, List.append_nil] at hrest
      exact ⟨rest, hread, hrest ▸ hspace⟩
    · simp [Fault.expected] at h
  · rintro ⟨rest, hread, hrest⟩
    have hskip : skipInline rest = [] := by
      simpa using skipInline_append hrest stops_nil
    refine ⟨(op, rest), hread, ?_⟩
    dsimp only
    rw [hskip]
    rfl

theorem readDirective_eq_ok {code body : List Char} {d : Directive} :
    readDirective .riscv code body = .ok d ↔ ∃ name rest, readSymbol body = some (name, rest) ∧
      Directive.ofNameValue (String.ofList name) (String.ofList (trimEnd (skipInline rest))) =
        .ok d := by
  rw [readDirective, requireOp_eq_ok Registry.knowsDialect_riscv .directive]
  simp only [bind, Except.bind]
  split
  · next hread => simp [hread, Fault.expected]
  · next name later hread =>
    constructor
    · intro h
      exact ⟨name, later, hread, Fault.of_ofRefusal_eq_ok h⟩
    · rintro ⟨_, _, heq, h⟩
      rw [hread] at heq
      cases heq
      rw [h]
      rfl

/-- The value of a directive has no white space at its ends. -/
theorem trim_of_ofNameValue {name value : List Char} {d : Directive}
    (h : Directive.ofNameValue (String.ofList name) (String.ofList value) = .ok d) :
    Stops isSpace value ∧ Stops isSpace value.reverse := by
  obtain ⟨-, hvalue⟩ := Directive.ofNameValue_eq_ok.1 h
  obtain ⟨-, -, htrim, -⟩ := of_defect?_eq_none d.defect?_eq_none
  rw [hvalue, String.toList_ofList] at htrim
  exact trim_eq_self_iff.1 htrim

theorem statementText_of_readDirective {body : List Char} {d : Directive}
    (hend : Stops isSpace ('.' :: body).reverse) (hlabel : ¬ BeginsLabel ('.' :: body))
    (h : readDirective .riscv ('.' :: body) body = .ok d) :
    StatementText .directive ('.' :: body) (.directive d) := by
  obtain ⟨name, afterName, hsymbol, hd⟩ := readDirective_eq_ok.1 h
  obtain ⟨hname, hlongest, rfl⟩ := readSymbol_iff.1 hsymbol
  obtain ⟨space, hspace, hafterName, -⟩ := exists_skipInline afterName
  generalize skipInline afterName = value at hafterName hd
  subst hafterName
  have hvalue : trimEnd value = value :=
    trimEnd_eq_self_iff.2 (stops_reverse_of_suffix hend ⟨'.' :: (name ++ space), by simp⟩)
  rw [hvalue] at hd
  exact .directive hname hlongest hspace hlabel hd

/-- What is read as an instruction is a mnemonic with operands behind it. -/
theorem exists_of_readInstruction {κ : Type} {registry : Registry κ} {code : List Char}
    {i : Instruction} (h : readInstruction registry code = .ok (i, rest)) :
    ∃ mnemonic space form operands, isSymbol mnemonic ∧
      registry.op? (Opcode.dialectStem ++ String.ofList mnemonic) =
        some (.instruction i.opcode) ∧
      Inline space ∧ Stops isSymbolChar (space ++ (operands ++ rest)) ∧
      OperandsText form i operands ∧ code = mnemonic ++ (space ++ (operands ++ rest)) := by
  obtain ⟨mnemonic, afterMnemonic, filled, hsymbol, hop, hoperands, hfilled⟩ :=
    readInstruction_eq_ok.1 h
  obtain ⟨hname, hlongest, rfl⟩ := readSymbol_iff.1 hsymbol
  obtain ⟨space, hspace, hafterMnemonic, -⟩ := exists_skipInline afterMnemonic
  obtain ⟨form, written, hwritten, hskip⟩ := operandsText_of_read hoperands hfilled
  rw [hskip] at hafterMnemonic
  subst hafterMnemonic
  exact ⟨mnemonic, space, form, written, hname, hop, hspace, hlongest, hwritten, rfl⟩

theorem statementText_of_readInstruction {code : List Char} {i : Instruction}
    (hend : Stops isSpace code.reverse) (hlabel : ¬ BeginsLabel code) (hrest : Inline rest)
    (h : readInstruction .riscv code = .ok (i, rest)) :
    ∃ form, StatementText form code (.instruction i) := by
  obtain ⟨mnemonic, space, form, operands, hname, hop, hspace, hlongest, hoperands, rfl⟩ :=
    exists_of_readInstruction h
  obtain rfl := eq_nil_of_inline hend ⟨mnemonic ++ (space ++ operands), by simp⟩ hrest
  rw [List.append_nil] at hlongest hlabel ⊢
  exact ⟨form, .instruction (op?_riscv_mnemonic.1 hop) hlongest hspace
    ((beginsLabel_append hname hlongest).not.1 hlabel) hoperands⟩

/-- What is read as a statement is one. -/
theorem statementText_of_readCode {code : List Char} {op : Op} (hend : Stops isSpace code.reverse)
    (h : readCode .riscv code = .ok op) : ∃ form, StatementText form code op := by
  obtain ⟨rest, hread, hrest⟩ := readCode_iff.1 h
  unfold readStatement at hread
  split at hread
  · next l afterColon hlabel =>
    obtain ⟨_, -, heq⟩ := Except.bind_eq_ok.1 hread
    cases heq
    obtain ⟨space, hspace, rfl⟩ := readLabelDefinition_eq_some.1 hlabel
    obtain rfl := eq_nil_of_inline hend ⟨l.name.toList ++ (space ++ [':']), by simp⟩ hrest
    exact ⟨.label, .label l hspace⟩
  · next hlabel =>
    rw [readLabelDefinition_eq_none_iff] at hlabel
    split at hread
    · obtain ⟨d, hd, heq⟩ := Except.map_eq_ok.1 hread
      cases heq
      exact ⟨.directive, statementText_of_readDirective hend hlabel hd⟩
    · obtain ⟨⟨i, left⟩, hi, heq⟩ := Except.map_eq_ok.1 hread
      cases heq
      exact statementText_of_readInstruction hend hlabel hrest hi

theorem readStatement_directive {name space value : List Char} {d : Directive}
    (hname : isSymbol name) (hlongest : Stops isSymbolChar (space ++ value)) (hspace : Inline space)
    (hlabel : ¬ BeginsLabel ('.' :: (name ++ (space ++ value))))
    (hd : Directive.ofNameValue (String.ofList name) (String.ofList value) = .ok d) :
    readStatement .riscv ('.' :: (name ++ (space ++ value))) = .ok (.directive d, []) := by
  obtain ⟨hstart, hend⟩ := trim_of_ofNameValue hd
  have hskip := skipInline_append hspace (hstart.mono fun _ => isSpace_of_isInlineSpace)
  have hvalue : trimEnd (skipInline (space ++ value)) = value := by
    rw [hskip, trimEnd_eq_self_iff.2 hend]
  have hread : readDirective .riscv ('.' :: (name ++ (space ++ value)))
      (name ++ (space ++ value)) = .ok d :=
    readDirective_eq_ok.2
      ⟨name, space ++ value, readSymbol_append hname hlongest, by rwa [hvalue]⟩
  rw [readStatement_dot (readLabelDefinition_eq_none_iff.2 hlabel), hread]
  rfl

theorem readStatement_instruction {form : Form} {mnemonic space operands : List Char}
    {i : Instruction} (hmnemonic : MnemonicText mnemonic i.opcode)
    (hlongest : Stops isSymbolChar (space ++ operands)) (hspace : Inline space)
    (hcolon : ¬ ColonFollows (space ++ operands)) (hoperands : OperandsText form i operands) :
    readStatement .riscv (mnemonic ++ (space ++ operands)) = .ok (.instruction i, []) := by
  have hlabel := (beginsLabel_append hmnemonic.isSymbol hlongest).not.2 hcolon
  obtain ⟨filled, hread, hfilled⟩ := exists_read_of_operandsText hoperands
    (stops_nil : Stops isSymbolChar [])
  rw [List.append_nil] at hread
  have hskip : skipInline (space ++ operands) = operands :=
    skipInline_append hspace hoperands.stops_isInlineSpace
  have hinstruction := readInstruction_eq_ok.2 ⟨mnemonic, space ++ operands, filled,
    readSymbol_append hmnemonic.isSymbol hlongest, op?_riscv_mnemonic.2 hmnemonic,
    by rwa [hskip], hfilled⟩
  rw [readStatement_of_not_label (readLabelDefinition_eq_none_iff.2 hlabel)
    (hmnemonic.head?_append _), hinstruction]
  rfl

/-- Every statement is read. -/
theorem readCode_of_statementText {form : Form} {code : List Char} {op : Op}
    (h : StatementText form code op) : readCode .riscv code = .ok op := by
  refine readCode_of_readStatement ?_
  cases h with
  | @label l space hspace =>
    exact readStatement_of_label Registry.knowsDialect_riscv
      (readLabelDefinition_eq_some.2 ⟨space, hspace, rfl⟩)
  | directive hname hlongest hspace hlabel hd =>
    exact readStatement_directive hname hlongest hspace hlabel hd
  | instruction hmnemonic hlongest hspace hcolon hoperands =>
    exact readStatement_instruction hmnemonic hlongest hspace hcolon hoperands

/-- A statement is read exactly if the grammar has it. -/
theorem readCode_eq_ok {code : List Char} {op : Op} (hend : Stops isSpace code.reverse) :
    readCode .riscv code = .ok op ↔ ∃ form, StatementText form code op :=
  ⟨statementText_of_readCode hend, fun ⟨_, h⟩ => readCode_of_statementText h⟩

/-- A text is a statement in one way at most. -/
theorem StatementText.unique {f g : Form} {code : List Char} {op op' : Op}
    (h : StatementText f code op) (h' : StatementText g code op') : f = g ∧ op = op' := by
  have hread := readCode_of_statementText h
  rw [readCode_of_statementText h'] at hread
  exact ⟨h.form_unique h', (Except.ok.inj hread).symm⟩

/-! ### Lines -/

/-- A statement has at least the first character of its name. -/
theorem StatementText.ne_nil {form : Form} {code : List Char} {op : Op}
    (h : StatementText form code op) : code ≠ [] := by
  cases h with
  | label l =>
    obtain ⟨c, later, hname, -⟩ := exists_eq_cons_of_isSymbol l.isSymbol_name
    simp [hname]
  | directive => exact List.cons_ne_nil _ _
  | instruction hmnemonic =>
    obtain ⟨c, later, hname, -⟩ := exists_eq_cons_of_isSymbol hmnemonic.isSymbol
    simp [hname]

theorem parse_line_eq_ok {line : String} (hline : '\n' ∉ line.toList) {p : Program} :
    parse .riscv line = .ok p ↔ p = [] ∧ codeOf line.toList = [] ∨
      ∃ op, p = [op] ∧ ∃ form, StatementText form (codeOf line.toList) op := by
  have hread (op : Op) : readCode .riscv (codeOf line.toList) = .ok op ↔
      ∃ form, StatementText form (codeOf line.toList) op :=
    readCode_eq_ok (stops_reverse_codeOf line.toList)
  rw [parse_eq_ok, codes_of_notMem_newline hline]
  split
  · next hcode =>
    have hnone (form : Form) (op : Op) : ¬ StatementText form [] op := fun h => h.ne_nil rfl
    simp [hcode, hnone]
  · next hcode =>
    simp only [List.forall₂_cons_left_iff, List.forall₂_nil_left_iff, hread, hcode, and_false,
      false_or]
    constructor
    · rintro ⟨op, _, hop, rfl, rfl⟩
      exact ⟨op, rfl, hop⟩
    · rintro ⟨op, rfl, hop⟩
      exact ⟨op, [], hop, rfl, rfl⟩

/-- What a line is read as. Without a statement it is read as no op, a statement is read as its op,
and nothing else is read at all. The forms of statements, and the two forms of the operands of loads
and stores, exclude each other. -/
theorem parse_line {line : String} (hline : '\n' ∉ line.toList) :
    (parse .riscv line = .ok [] ↔ codeOf line.toList = []) ∧
    (∀ op, parse .riscv line = .ok [op] ↔ ∃! form, StatementText form (codeOf line.toList) op) ∧
    (codeOf line.toList ≠ [] → (¬ ∃ form op, StatementText form (codeOf line.toList) op) →
      ∃ e, parse .riscv line = .error e) ∧
    (∀ f g code op op', StatementText f code op → StatementText g code op' → f = g ∧ op = op') ∧
    ∀ i j operands, OperandsText .plain i operands → ¬ OperandsText .address j operands := by
  have hok (p : Program) := parse_line_eq_ok hline (p := p)
  refine ⟨by simp [hok], ?_, ?_, fun _ _ _ _ _ h h' => h.unique h', ?_⟩
  · intro op
    rw [hok]
    constructor
    · rintro (⟨h, -⟩ | ⟨_, h, form, hform⟩)
      · cases h
      · cases h
        exact ⟨form, hform, fun _ hother => hother.form_unique hform⟩
    · rintro ⟨form, hform, -⟩
      exact .inr ⟨op, rfl, form, hform⟩
  · intro hcode hnone
    cases hparse : parse .riscv line with
    | error e => exact ⟨e, rfl⟩
    | ok p =>
      rcases (hok p).1 hparse with ⟨-, h⟩ | ⟨op, -, form, h⟩
      · exact absurd h hcode
      · exact absurd ⟨form, op, h⟩ hnone
  · intro i j operands hplain haddress
    exact absurd (hplain.form_eq.trans haddress.form_eq.symm) (by decide)

/-- A load from where `sp` points, with a comment behind it. -/
theorem parse_line_load :
    '\n' ∉ "\tlw a0, (sp)  # next".toList ∧
      parse .riscv "\tlw a0, (sp)  # next" =
        .ok [.instruction ⟨.lw, .rdRs1Imm ⟨10⟩ ⟨2⟩ (.full 0), rfl⟩] := by
  have hspace : Inline [' '] := List.forall_mem_singleton.2 rfl
  have hcolon : ¬ ColonFollows (' ' :: "a0, (sp)".toList) := by
    rintro ⟨space, rest, -, h⟩
    have hmem : ':' ∈ ' ' :: "a0, (sp)".toList := h ▸ List.mem_append_right _ List.mem_cons_self
    exact absurd hmem (by decide)
  have haddress : AddressText ("a0".toList ++ (([] ++ ',' :: [' ']) ++ ([] ++ ([] ++ '(' ::
      ([] ++ ("sp".toList ++ ([] ++ [')']))))))) ⟨10⟩ 0 ⟨2⟩ :=
    .parenthesized (.abi (by decide)) (.spaced inline_nil hspace) .missing inline_nil inline_nil
      (.abi (by decide)) inline_nil
  have hload : StatementText .address ("lw".toList ++ ([' '] ++ "a0, (sp)".toList))
      (.instruction ⟨.lw, .rdRs1Imm ⟨10⟩ ⟨2⟩ (.full 0), rfl⟩) :=
    .instruction (.catalog .lw) (stops_cons.2 (by decide)) hspace hcolon (.load rfl haddress rfl)
  exact ⟨by decide,
    ((parse_line (by decide)).2.1 _).2 ⟨.address, hload, fun _ h => h.form_unique hload⟩⟩

end RiscvDialect.Assembly.Grammar

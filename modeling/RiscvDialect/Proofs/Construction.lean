import RiscvDialect.Proofs.Assembly.Grammar.Statement
import RiscvDialect.Proofs.Assembly.Grammar.Specs
import RiscvDialect.Proofs.Assembly.RoundTrip

/-!
# The ways to build an instruction

An instruction can be built from operands of its shape as a caller gives them, from finished
operands, from a dictionary, and from assembly, where loads and stores have two forms. All of these
give the same instruction. Only a label that is not a symbol stops the first, and the other three
have nothing left to refuse once it has passed; assembly has 64 bits for its integers and no others.

## Main statements

* `Instruction.construct_eq_ok`: what is built from the operands of a caller
* `Instruction.construct_eq_ofSpecs`: a check of the shape changes nothing
* `Assembly.Grammar.OperandsText.parse`: the operands behind a mnemonic are read
* `Assembly.Grammar.exists_operandsText_plain`, `Assembly.Grammar.exists_operandsText_address`: wide
  operands can be written
* `Instruction.construct_agrees`: what an instruction is built from does not matter
-/

namespace RiscvDialect

/-! ### Building an instruction -/

namespace Instruction

variable {opcode : Opcode} {specs : OperandSpecs} {hspecs : specs.shape = opcode.shape}

theorem construct_eq_error {e : DialectError} :
    construct opcode specs hspecs = .error e ↔ specs.resolve = .error e := by
  rw [construct]
  split <;> next h => simp [h]

/-- An instruction is built if it has the operands that were meant. -/
theorem construct_eq_ok {i : Instruction} : construct opcode specs hspecs = .ok i ↔
    i.opcode = opcode ∧ specs.Mean i.operands := by
  rw [construct, ← OperandSpecs.resolve_eq_ok]
  split
  · next operands hoperands =>
    simp only [Except.ok.injEq]
    constructor
    · rintro rfl
      exact ⟨rfl, hoperands⟩
    · rintro ⟨rfl, h⟩
      cases hoperands.symm.trans h
      rfl
  · next h => simp [h]

theorem exists_construct_iff : (∃ i, construct opcode specs hspecs = .ok i) ↔
    ∀ text, specs.offset = some (.labelText text) → isSymbol text.toList := by
  rw [← OperandSpecs.exists_resolve_iff]
  constructor
  · rintro ⟨i, hi⟩
    exact ⟨i.operands, OperandSpecs.resolve_eq_ok.2 (construct_eq_ok.1 hi).2⟩
  · rintro ⟨operands, hoperands⟩
    exact ⟨⟨opcode, operands, (OperandSpecs.shape_resolve hoperands).trans hspecs⟩,
      construct_eq_ok.2 ⟨rfl, OperandSpecs.resolve_eq_ok.1 hoperands⟩⟩

/-- Operands of the right shape pass the check of their shape. -/
theorem construct_eq_ofSpecs (opcode : Opcode) (specs : OperandSpecs)
    (hspecs : specs.shape = opcode.shape) :
    construct opcode specs hspecs = ofSpecs opcode specs := by
  cases hresolve : specs.resolve with
  | error e =>
    rw [construct_eq_error.2 hresolve, ofSpecs, hresolve]
    rfl
  | ok operands =>
    have hshape : operands.shape = opcode.shape :=
      (OperandSpecs.shape_resolve hresolve).trans hspecs
    have hi : construct opcode specs hspecs = .ok ⟨opcode, operands, hshape⟩ :=
      construct_eq_ok.2 ⟨rfl, OperandSpecs.resolve_eq_ok.1 hresolve⟩
    rw [hi, ofSpecs, hresolve]
    change _ = ofOperands opcode operands
    rw [ofOperands, dif_pos hshape]

end Instruction

/-! ### Operands on a line -/

namespace Assembly.Grammar

open Text

theorem isOperandChar_of_or {c : Char} (h : isSymbolChar c ∨ c = '-') : IsOperandChar c := by
  rcases h with h | rfl
  · exact .inl h
  · decide

theorem OperandText.endsSolid {kind : SlotKind} {written : List Char} {operand : Operand}
    (h : OperandText kind written operand) : EndsSolid written := by
  obtain ⟨c, later, hne, -⟩ := h.startsOperand
  exact endsSolid_of_isOperandChar (by simp [hne]) fun c hc => isOperandChar_of_or (h.chars c hc)

theorem PlainText.endsSolid {slots : List Slot} {written : List Char}
    {filled : List (Slot × Operand)} (h : PlainText slots written filled) (hne : written ≠ []) :
    EndsSolid written := by
  induction h with
  | none => exact absurd rfl hne
  | last hoperand => exact hoperand.endsSolid
  | more hoperand hcomma hlater ih =>
    obtain ⟨c, later, hcons, -⟩ := hlater.startsOperand (by simp)
    exact ((ih (by simp [hcons])).append _).append _

theorem AddressText.endsSolid {written : List Char} {value base : Register} {displacement : Int64}
    (h : AddressText written value displacement base) : EndsSolid written := by
  obtain ⟨⟩ := h
  exact endsSolid_of_stops_reverse (by simp) (by simp; decide)

theorem AddressText.chars {written : List Char} {value base : Register} {displacement : Int64}
    (h : AddressText written value displacement base) :
    ∀ c ∈ written, IsOperandChar c ∨ c = ',' ∨ isInlineSpace c := by
  obtain ⟨hvalue, hcomma, hnumber, hbeforeOpen, hafterOpen, hbase, hbeforeClose⟩ := h
  have hname : ∀ {name r c}, Register.Named name r → c ∈ name.toList → IsOperandChar c :=
    fun h hc => .inl (isSymbolChar_of_isAlphanum (h.isAlphanum _ hc))
  intro c hc
  simp only [List.mem_append, List.mem_cons, List.not_mem_nil, or_false] at hc
  rcases hc with hc | hc | hc | hc | rfl | hc | hc | hc | rfl
  · exact .inl (hname hvalue hc)
  · exact .inr (hcomma.chars c hc)
  · cases hnumber with
    | missing => simp at hc
    | integer hinteger => exact .inl (isOperandChar_of_or (hinteger.literalText.chars c hc))
  · exact .inr (.inr (hbeforeOpen c hc))
  · exact .inl (by decide)
  · exact .inr (.inr (hafterOpen c hc))
  · exact .inl (hname hbase hc)
  · exact .inr (.inr (hbeforeClose c hc))
  · exact .inl (by decide)

theorem OperandsText.chars {form : Form} {i : Instruction} {written : List Char}
    (h : OperandsText form i written) :
    ∀ c ∈ written, IsOperandChar c ∨ c = ',' ∨ isInlineSpace c := by
  cases h with
  | plain hplain =>
    intro c hc
    exact (or_assoc.2 (hplain.chars c hc)).imp_left isOperandChar_of_or
  | load _ haddress => exact haddress.chars
  | store _ haddress => exact haddress.chars

/-- Operands do not end in spaces and tabs, if there are any. -/
theorem OperandsText.endsSolid {form : Form} {i : Instruction} {written : List Char}
    (h : OperandsText form i written) (hne : written ≠ []) : EndsSolid written := by
  cases h with
  | plain hplain => exact hplain.endsSolid hne
  | load _ haddress => exact haddress.endsSolid
  | store _ haddress => exact haddress.endsSolid

/-- The characters of operands, and those between them, mean nothing to the cutting of lines and
comments. -/
theorem ne_of_isOperandChar_or {c : Char} (h : IsOperandChar c ∨ c = ',' ∨ isInlineSpace c) :
    c ≠ '#' ∧ c ≠ '"' ∧ c ≠ '\n' := by
  rcases h with h | rfl | h
  · exact IsPlain.ne (.inl h)
  · decide
  · rcases isInlineSpace_iff.1 h with rfl | rfl <;> decide

/-- Nothing in a statement with a mnemonic means anything to the cutting of lines and comments. -/
theorem ne_of_mem_statement {mnemonic space operands : List Char} (hmnemonic : isSymbol mnemonic)
    (hspace : Inline space)
    (hoperands : ∀ c ∈ operands, IsOperandChar c ∨ c = ',' ∨ isInlineSpace c) :
    ∀ c ∈ mnemonic ++ (space ++ operands), c ≠ '#' ∧ c ≠ '"' ∧ c ≠ '\n' := by
  intro c hc
  rcases List.mem_append.1 hc with hc | hc
  · exact (isPlain_of_mem_symbol hmnemonic hc).ne
  · rcases List.mem_append.1 hc with hc | hc
    · exact ne_of_isOperandChar_or (.inr (.inr (hspace c hc)))
    · exact ne_of_isOperandChar_or (hoperands c hc)

section

variable {form : Form} {i : Instruction} {space operands : List Char}

/-- An instruction is a statement. Its name ends where the operands or the space before them
starts, and no colon follows. -/
theorem OperandsText.statementText (hspace : Inline space) (hne : space = [] ↔ operands = [])
    (h : OperandsText form i operands) :
    StatementText form (i.opcode.mnemonic.toList ++ (space ++ operands)) (.instruction i) := by
  refine .instruction (.catalog i.opcode) ?_ hspace ?_ h
  · cases space with
    | nil => simp [hne.1 rfl]
    | cons c space =>
      exact stops_cons.2 (not_isSymbolChar_of_isInlineSpace (hspace c List.mem_cons_self))
  · rintro ⟨before, rest, -, htext⟩
    have hmem : ':' ∈ space ++ operands := by simp [htext]
    rcases List.mem_append.1 hmem with hcolon | hcolon
    · exact absurd hcolon (hspace.notMem (by decide))
    · exact absurd (h.chars _ hcolon) (by decide)

/-- The statement has its line to itself. -/
theorem OperandsText.isCode (hspace : Inline space) (hne : space = [] ↔ operands = [])
    (h : OperandsText form i operands) :
    IsCode (i.opcode.mnemonic.toList ++ (space ++ operands)) := by
  have hsymbol := isSymbol_mnemonic i.opcode
  refine isCode_of_chars (ne_of_mem_statement hsymbol hspace h.chars)
    (stops_isSpace_of_isSymbol hsymbol _) ?_
  by_cases hoperands : operands = []
  · simpa [hoperands, hne.2 hoperands] using endsSolid_of_isSymbol hsymbol
  · exact ((h.endsSolid hoperands).append _).append _

/-- The operands behind a mnemonic are read. -/
theorem OperandsText.parse (hspace : Inline space) (hne : space = [] ↔ operands = [])
    (h : OperandsText form i operands) :
    Assembly.parse .riscv (String.ofList (i.opcode.mnemonic.toList ++ (space ++ operands))) =
      .ok [.instruction i] := by
  have hcode := h.isCode hspace hne
  rw [parse_line_eq_ok (by simpa using hcode.newline_notMem), String.toList_ofList, hcode.codeOf_eq]
  exact .inr ⟨_, rfl, form, h.statementText hspace hne⟩

end

/-! ### Wide operands are written -/

theorem exists_integerText (value : Int64) : ∃ text, IntegerText text value := by
  have hread : readInt64 ((toString value.toInt).toList ++ []) = some (value, []) :=
    readInt64_eq_some.2 ⟨_, Numeral.readInteger_toString stops_nil, rfl⟩
  obtain ⟨number, hnumber, -⟩ := integerText_of_readInt64 hread
  exact ⟨number, hnumber⟩

theorem exists_operandText {operand : Operand} (hwide : operand.toAttribute.IsWide) :
    ∃ text, OperandText operand.kind text operand := by
  have hfull : ∀ {i : SizedInt}, i.width = 64 → i = .full i.value := fun h =>
    (SizedInt.widen_eq_self_iff.2 h).symm
  rcases operand with r | i | (i | l)
  · exact ⟨_, .register (Register.named_numericName r)⟩
  · obtain ⟨text, htext⟩ := exists_integerText i.value
    rw [hfull (hwide i rfl)]
    exact ⟨text, .immediate htext⟩
  · obtain ⟨text, htext⟩ := exists_integerText i.value
    rw [hfull (hwide i rfl)]
    exact ⟨text, .number htext⟩
  · exact ⟨_, .label l⟩

/-- Operands of the kinds of their slots are written in the order of the slots. -/
theorem exists_plainText {filled : List (Slot × Operand)}
    (hkind : ∀ f ∈ filled, f.2.kind = f.1.kind) (hwide : ∀ f ∈ filled, f.2.toAttribute.IsWide) :
    ∃ text, PlainText (filled.map Prod.fst) text filled := by
  induction filled with
  | nil => exact ⟨[], .none⟩
  | cons f later ih =>
    rw [List.forall_mem_cons] at hkind hwide
    obtain ⟨text, htext⟩ := exists_operandText hwide.1
    obtain ⟨texts, htexts⟩ := ih hkind.2 hwide.2
    rw [hkind.1] at htext
    cases later with
    | nil => exact ⟨text, .last htext⟩
    | cons next later =>
      exact ⟨_, .more htext (.spaced inline_nil inline_nil) htexts⟩

theorem exists_addressText (value base : Register) (displacement : Int64) :
    ∃ text, AddressText text value displacement base := by
  obtain ⟨number, hnumber⟩ := exists_integerText displacement
  exact ⟨_, .parenthesized (Register.named_numericName value) (.spaced inline_nil inline_nil)
    (.integer hnumber) inline_nil inline_nil (Register.named_numericName base) inline_nil⟩

/-- Wide operands can be written in the order of the slots. -/
theorem exists_operandsText_plain {i : Instruction} (hwide : (Op.instruction i).IsWide) :
    ∃ text, OperandsText .plain i text := by
  have hwide' : ∀ f ∈ i.operands.toList, f.2.toAttribute.IsWide := fun f hf =>
    hwide _ (Instruction.mem_attributes.2 ⟨f, hf, rfl⟩)
  obtain ⟨text, htext⟩ := exists_plainText (fun f hf => Operands.kind_of_mem_toList hf) hwide'
  rw [Operands.map_fst_toList, i.shape_operands] at htext
  exact ⟨text, .plain htext⟩

/-- The wide operands of loads and stores can be written with an address. -/
theorem exists_operandsText_address {i : Instruction} (hwide : (Op.instruction i).IsWide)
    (hmemory : i.opcode.isMemory) : ∃ text, OperandsText .address i text := by
  have hfull : ∀ {immediate}, (.immediate, .immediate immediate) ∈ i.operands.toList →
      immediate = .full immediate.value := fun hmem =>
    (SizedInt.widen_eq_self_iff.2
      (hwide _ (Instruction.mem_attributes.2 ⟨_, hmem, rfl⟩) _ rfl)).symm
  have hshape := i.shape_operands
  rcases isMemory_iff.1 hmemory with hload | hstore
  · rw [shape_of_load hload] at hshape
    cases hi : i.operands with
    | rdRs1Imm value base immediate =>
      obtain ⟨text, htext⟩ := exists_addressText value base immediate.value
      have himmediate : immediate = .full immediate.value := hfull (by simp [hi, Operands.toList])
      exact ⟨text, .load hload htext (by rw [hi, ← himmediate])⟩
    | _ => simp [hi, OperandsWith.shape] at hshape
  · rw [shape_of_store hstore] at hshape
    cases hi : i.operands with
    | rs1Rs2Imm base value immediate =>
      obtain ⟨text, htext⟩ := exists_addressText value base immediate.value
      have himmediate : immediate = .full immediate.value := hfull (by simp [hi, Operands.toList])
      exact ⟨text, .store hstore htext (by rw [hi, ← himmediate])⟩
    | _ => simp [hi, OperandsWith.shape] at hshape

end Assembly.Grammar

open Assembly Assembly.Grammar

/-! ### All ways at once -/

/-- What an instruction is built from does not matter. From operands of its shape as a caller gives
them it is built, with or without a check of the shape, unless a label is given that is no symbol;
and then the error tells if the label is empty. What is built has the operands that were meant: the
registers given, a number with 64 bits, a text as a label, and a finished value as it is. The same
instruction is built from these operands, and from their values under the names of their slots in
any order. It is also the one that is read from its mnemonic and what the caller gave, in assembly:
in the order of the slots, or as an address for loads and stores. If its integer has 64 bits, what
was given can be written in these forms. -/
theorem Instruction.construct_agrees (opcode : Opcode) (specs : OperandSpecs)
    (hspecs : specs.shape = opcode.shape) :
    construct opcode specs hspecs = ofSpecs opcode specs ∧
    ((∃ i, construct opcode specs hspecs = .ok i) ↔
      ∀ text, specs.offset = some (.labelText text) → isSymbol text.toList) ∧
    (∀ text, specs.offset = some (.labelText text) → ¬ isSymbol text.toList →
      construct opcode specs hspecs =
        .error (if text.isEmpty then .emptyLabel else .invalidLabel text)) ∧
    (∀ i, construct opcode specs hspecs = .ok i ↔ i.opcode = opcode ∧ specs.Mean i.operands) ∧
    ∀ operands, specs.Mean operands → ∃ i, construct opcode specs hspecs = .ok i ∧
      ofOperands opcode operands = .ok i ∧
      (∀ entries : Dictionary,
        entries.Perm (operands.attributes.map fun (slot, value) => (slot.name, value)) →
        ofDictionary opcode entries = .ok i) ∧
      (∀ form text, GivenText opcode form specs text ↔ OperandsText form i text) ∧
      (∀ form space text, Inline space → (space = [] ↔ text = []) →
        GivenText opcode form specs text →
        parse .riscv (String.ofList (opcode.mnemonic.toList ++ (space ++ text))) =
          .ok [.instruction i]) ∧
      ((Op.instruction i).IsWide → (∃ text, GivenText opcode .plain specs text) ∧
        (opcode.isMemory → ∃ text, GivenText opcode .address specs text)) := by
  refine ⟨construct_eq_ofSpecs opcode specs hspecs, exists_construct_iff,
    fun text hoffset hsymbol => ?_, fun _ => construct_eq_ok, fun operands hmean => ?_⟩
  · exact construct_eq_error.2
      (OperandSpecs.resolve_eq_error.2 ⟨text, hoffset, Label.ofName_eq_error.2 ⟨hsymbol, rfl⟩⟩)
  · have hshape : operands.shape = opcode.shape :=
      (OperandSpecs.shape_resolve (OperandSpecs.resolve_eq_ok.2 hmean)).trans hspecs
    obtain ⟨i, rfl, rfl⟩ : ∃ i : Instruction, i.opcode = opcode ∧ i.operands = operands :=
      ⟨⟨opcode, operands, hshape⟩, rfl, rfl⟩
    have hgiven (form : Form) (text : List Char) :
        GivenText i.opcode form specs text ↔ OperandsText form i text := givenText_iff hmean
    refine ⟨i, construct_eq_ok.2 ⟨rfl, hmean⟩, ofOperands_operands i,
      fun entries hentries => ofDictionary_eq_ok.2 ⟨rfl, hentries⟩, hgiven,
      fun form space text hspace hne htext => ((hgiven form text).1 htext).parse hspace hne,
      fun hwide => ?_⟩
    simp only [hgiven]
    exact ⟨exists_operandsText_plain hwide, exists_operandsText_address hwide⟩

/-- A store reads the register that it stores behind the base of its address, and assembly has the
two the other way round. -/
theorem Instruction.construct_agrees_store :
    construct .sw (.rs1Rs2Imm ⟨2⟩ ⟨10⟩ (.value 8)) rfl =
        .ok ⟨.sw, .rs1Rs2Imm ⟨2⟩ ⟨10⟩ (.full 8), rfl⟩ ∧
      parse .riscv "sw a0, 8(x2)" =
        .ok [.instruction ⟨.sw, .rs1Rs2Imm ⟨2⟩ ⟨10⟩ (.full 8), rfl⟩] := by
  have hspace : Inline [' '] := List.forall_mem_singleton.2 rfl
  have hnumber : IntegerText ['8'] 8 := .nonneg (.decimal (by simp) (by decide)) (by decide)
  have haddress : AddressText ("a0".toList ++ (([] ++ ',' :: [' ']) ++ (['8'] ++ ([] ++ '(' ::
      ([] ++ ("x2".toList ++ ([] ++ [')']))))))) ⟨10⟩ 8 ⟨2⟩ :=
    .parenthesized (.abi (by decide)) (.spaced inline_nil hspace) (.integer hnumber) inline_nil
      inline_nil (Register.named_numericName ⟨2⟩) inline_nil
  have hmean : OperandSpecs.Mean (.rs1Rs2Imm ⟨2⟩ ⟨10⟩ (.value 8))
      (.rs1Rs2Imm ⟨2⟩ ⟨10⟩ (.full 8)) := .rs1Rs2Imm _ _ (.value (i := .full 8) rfl)
  obtain ⟨-, -, -, -, hbuilds⟩ := construct_agrees .sw (.rs1Rs2Imm ⟨2⟩ ⟨10⟩ (.value 8)) rfl
  obtain ⟨i, hbuilt, hi, -, -, hread, -⟩ := hbuilds _ hmean
  cases hi
  exact ⟨hbuilt, hread .address [' '] _ hspace (by simp) (.store rfl (.value 8) haddress)⟩

end RiscvDialect

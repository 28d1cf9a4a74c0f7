import RiscvDialect.Proofs.Assembly.Mnemonic
import RiscvDialect.Proofs.Construction

/-!
# Where integers stand

An instruction has at most one integer, its constant, and it is the last of its operands. In the
order of the slots it ends the statement, and in an address it stands in front of the parenthesis.
So a line with an instruction is known by what is around its integer. This holds for all registries,
since what stands behind a mnemonic depends on its opcode only.

## Main definitions

* `Place`: where the integer of an instruction may stand
* `UpTo`: the operands before a slot
* `OperandsAround`, `LineAround`: operands and lines around an integer
* `HasLine`: a line of a text

## Main statements

* `exists_operandsAround`, `exists_lineAround`: the integers of instructions stand at these places
* `exists_hasLine`: the ops of a text stand on its lines
-/

namespace RiscvDialect.Assembly.Grammar

open Text

/-! ### Places -/

/-- Where the integer of an instruction may stand. -/
inductive Place where
  /-- In the slot of an immediate. -/
  | immediate
  /-- In the slot of an offset. -/
  | offset
  /-- In an address, in front of the parenthesis. -/
  | displacement
  deriving DecidableEq, Repr

/-- The text of an integer at its place. Only a displacement may be left out. -/
def Place.Writes : Place → List Char → Int64 → Prop
  | .displacement => DisplacementText
  | _ => IntegerText

/-! ### Operands before a slot -/

/-- The text of the operands up to the one of the slot `last`, with all the commas. -/
inductive UpTo : List Slot → List Char → Slot → Prop where
  | first {slot : Slot} {slots : List Slot} : UpTo (slot :: slots) [] slot
  | more {slot next last : Slot} {slots : List Slot} {text comma later : List Char}
    {operand : Operand} (h : OperandText slot.kind text operand) (hcomma : CommaText comma)
    (hlater : UpTo (next :: slots) later last) :
    UpTo (slot :: next :: slots) (text ++ (comma ++ later)) last

section UpTo

variable {slots : List Slot} {last : Slot} {before rest : List Char}

theorem UpTo.startsOperand (h : UpTo slots before last) (hrest : StartsOperand rest) :
    StartsOperand (before ++ rest) := by
  cases h with
  | first => exact hrest
  | more hoperand =>
    rw [List.append_assoc]
    exact hoperand.startsOperand.append _

theorem UpTo.chars (h : UpTo slots before last) :
    ∀ c ∈ before, IsOperandChar c ∨ c = ',' ∨ isInlineSpace c := by
  induction h with
  | first => simp
  | more hoperand hcomma hlater ih =>
    intro c hc
    rcases List.mem_append.1 hc with hc | hc
    · exact .inl (isOperandChar_of_or (hoperand.chars c hc))
    · rcases List.mem_append.1 hc with hc | hc
      · exact .inr (hcomma.chars c hc)
      · exact ih c hc

end UpTo

/-! ### Operands around an integer -/

/-- The operands of an instruction around its integer. -/
inductive OperandsAround (opcode : Opcode) : Place → List Char → List Char → Prop where
  | immediate {before : List Char} (h : UpTo opcode.shape.slots before .immediate) :
    OperandsAround opcode .immediate before []
  | offset {before : List Char} (h : UpTo opcode.shape.slots before .offset) :
    OperandsAround opcode .offset before []
  | displacement {valueName baseName : String} {value base : Register}
    {comma beforeOpen afterOpen beforeClose : List Char} (hmemory : opcode.isMemory)
    (hvalue : Register.Named valueName value) (hcomma : CommaText comma)
    (hbeforeOpen : Inline beforeOpen) (hafterOpen : Inline afterOpen)
    (hbase : Register.Named baseName base) (hbeforeClose : Inline beforeClose) :
    OperandsAround opcode .displacement (valueName.toList ++ comma)
      (beforeOpen ++ '(' :: (afterOpen ++ (baseName.toList ++ (beforeClose ++ [')']))))

section OperandsAround

variable {opcode : Opcode} {place : Place} {before after : List Char}

/-- Behind an integer stands nothing that could belong to it. -/
theorem OperandsAround.stops (h : OperandsAround opcode place before after) :
    Stops isSymbolChar after := by
  cases h with
  | immediate => exact stops_nil
  | offset => exact stops_nil
  | displacement _ _ _ hbeforeOpen => exact stops_inline hbeforeOpen (stops_cons.2 (by decide))

theorem OperandsAround.chars (h : OperandsAround opcode place before after) :
    ∀ c ∈ before ++ after, IsOperandChar c ∨ c = ',' ∨ isInlineSpace c := by
  cases h with
  | immediate h => simpa using h.chars
  | offset h => simpa using h.chars
  | displacement _ hvalue hcomma hbeforeOpen hafterOpen hbase hbeforeClose =>
    have haddress := AddressText.parenthesized hvalue hcomma .missing hbeforeOpen hafterOpen hbase
      hbeforeClose
    simpa using haddress.chars

/-- Constants are the last operands. -/
theorem kind_of_mem_dropLast {shape : Shape} :
    ∀ slot ∈ shape.slots.dropLast, slot.kind = .register := by
  cases shape <;> decide

/-- The first operand is a register. -/
theorem kind_of_slots_eq_cons {shape : Shape} {slot : Slot} {slots : List Slot}
    (h : shape.slots = slot :: slots) : slot.kind = .register := by
  cases shape <;> cases h <;> rfl

theorem integerText_of_toAttribute {kind : SlotKind} {written : List Char} {operand : Operand}
    {m : SizedInt} (h : OperandText kind written operand) (hm : operand.toAttribute = .integer m) :
    IntegerText written m.value ∧ kind ≠ .register := by
  cases h with
  | immediate hnumber =>
    cases hm
    exact ⟨hnumber, by decide⟩
  | number hnumber =>
    cases hm
    exact ⟨hnumber, by decide⟩
  | register => cases hm
  | label => cases hm

theorem PlainText.exists_upTo {slots : List Slot} {written : List Char}
    {filled : List (Slot × Operand)} (h : PlainText slots written filled)
    (hregister : ∀ slot ∈ slots.dropLast, slot.kind = .register) {f : Slot × Operand}
    (hf : f ∈ filled) {m : SizedInt} (hm : f.2.toAttribute = .integer m) :
    ∃ before number, written = before ++ number ∧ UpTo slots before f.1 ∧
      IntegerText number m.value ∧ f.1.kind ≠ .register := by
  induction h with
  | none => simp at hf
  | last hoperand =>
    obtain rfl := List.mem_singleton.1 hf
    obtain ⟨hnumber, hkind⟩ := integerText_of_toAttribute hoperand hm
    exact ⟨[], _, rfl, .first, hnumber, hkind⟩
  | more hoperand hcomma hlater ih =>
    rw [List.dropLast_cons_cons, List.forall_mem_cons] at hregister
    rcases List.mem_cons.1 hf with rfl | hf
    · exact absurd hregister.1 (integerText_of_toAttribute hoperand hm).2
    · obtain ⟨before, number, rfl, hupTo, hnumber, hkind⟩ := ih hregister.2 hf
      exact ⟨_, number, by simp, .more hoperand hcomma hupTo, hnumber, hkind⟩

/-- The displacement of an address stands in front of the parenthesis. -/
theorem AddressText.exists_operandsAround {written : List Char} {value base : Register}
    {displacement : Int64} (hmemory : opcode.isMemory)
    (h : AddressText written value displacement base) :
    ∃ place before number after, written = before ++ (number ++ after) ∧
      OperandsAround opcode place before after ∧ place.Writes number displacement := by
  obtain ⟨hvalue, hcomma, hnumber, hbeforeOpen, hafterOpen, hbase, hbeforeClose⟩ := h
  exact ⟨.displacement, _, _, _, by simp, .displacement hmemory hvalue hcomma hbeforeOpen hafterOpen
    hbase hbeforeClose, hnumber⟩

/-- An integer among the operands of an instruction stands at one of the places. -/
theorem exists_operandsAround {form : Form} {i : Instruction} {written : List Char}
    (h : OperandsText form i written) {f : Slot × Operand} (hf : f ∈ i.operands.toList)
    {m : SizedInt} (hm : f.2.toAttribute = .integer m) :
    ∃ place before number after, written = before ++ (number ++ after) ∧
      OperandsAround i.opcode place before after ∧ place.Writes number m.value := by
  cases h with
  | plain hplain =>
    obtain ⟨before, number, rfl, hupTo, hnumber, hkind⟩ :=
      hplain.exists_upTo kind_of_mem_dropLast hf hm
    obtain ⟨slot, operand⟩ := f
    cases slot with
    | immediate => exact ⟨.immediate, before, number, [], by simp, .immediate hupTo, hnumber⟩
    | offset => exact ⟨.offset, before, number, [], by simp, .offset hupTo, hnumber⟩
    | _ => exact absurd rfl hkind
  | load hload haddress hi =>
    rw [hi] at hf
    simp only [Operands.toList, List.mem_cons, List.not_mem_nil, or_false] at hf
    rcases hf with rfl | rfl | rfl <;> cases hm
    exact haddress.exists_operandsAround (isMemory_iff.2 (.inl hload))
  | store hstore haddress hi =>
    rw [hi] at hf
    simp only [Operands.toList, List.mem_cons, List.not_mem_nil, or_false] at hf
    rcases hf with rfl | rfl | rfl <;> cases hm
    exact haddress.exists_operandsAround (isMemory_iff.2 (.inr hstore))

/-- Operands start with the name of a register. -/
theorem OperandsText.head_isAlpha {form : Form} {i : Instruction} {written : List Char}
    (h : OperandsText form i written) (hne : i.operands.toList ≠ []) :
    ∃ c later, written = c :: later ∧ c.isAlpha := by
  have haddress : ∀ {value displacement base}, AddressText written value displacement base →
      ∃ c later, written = c :: later ∧ c.isAlpha := by
    intro value displacement base h
    obtain ⟨hvalue⟩ := h
    obtain ⟨c, later, hcons, hc⟩ := hvalue.head_isAlpha
    rw [hcons]
    exact ⟨c, _, rfl, hc⟩
  cases h with
  | plain hplain =>
    cases hslots : i.opcode.shape.slots with
    | nil =>
      rw [← i.shape_operands, ← Operands.map_fst_toList, List.map_eq_nil_iff] at hslots
      exact absurd hslots hne
    | cons slot slots =>
      rw [hslots] at hplain
      exact hplain.head_isAlpha (kind_of_slots_eq_cons hslots)
  | load _ h => exact haddress h
  | store _ h => exact haddress h

end OperandsAround

/-! ### Lines around an integer -/

/-- A line with an instruction, around its integer: what stands before the integer, what follows it
in the statement, and what follows the statement. -/
inductive LineAround {κ : Type} (registry : Registry κ) (opcode : Opcode) (place : Place) :
    List Char → List Char → List Char → Prop where
  | instruction {lead space operands after tail : List Char} {mnemonic : String}
    (hlead : ∀ c ∈ lead, isSpace c) (hmnemonic : IsMnemonic registry mnemonic opcode)
    (hspace : Inline space) (hne : space ≠ [])
    (hoperands : OperandsAround opcode place operands after) (htail : codeOf tail = []) :
    LineAround registry opcode place (lead ++ (mnemonic.toList ++ (space ++ operands))) after tail

/-- Without hashes and quotes in its statement, a line is cut off where the statement ends. -/
theorem exists_tail {line : List Char} (hplain : ∀ c ∈ codeOf line, c ≠ '#' ∧ c ≠ '"') :
    ∃ lead tail, (∀ c ∈ lead, isSpace c) ∧ codeOf tail = [] ∧
      line = lead ++ (codeOf line ++ tail) := by
  obtain ⟨comment, hcomment⟩ := isPrefix_uncommentedFrom .outside line
  obtain ⟨lead, space, hlead, hspace, hbare⟩ := exists_trim (uncommented line)
  have hline : line = lead ++ (codeOf line ++ (space ++ comment)) := by
    calc line = uncommented line ++ comment := hcomment.symm
      _ = lead ++ (codeOf line ++ space) ++ comment := congrArg (· ++ comment) hbare
      _ = lead ++ (codeOf line ++ (space ++ comment)) := by simp
  refine ⟨lead, space ++ comment, hlead, ?_, hline⟩
  have hkept : uncommented (space ++ comment) = space := by
    have hbehind : lead ++ (codeOf line ++ uncommented (space ++ comment)) =
        lead ++ (codeOf line ++ space) := by
      rw [← uncommented_append hplain, ← uncommented_append_of_isSpace hlead, ← hline]
      exact hbare
    simpa using hbehind
  rw [codeOf, hkept, trim, trimStart, List.dropWhile_eq_nil_iff.2 hspace]
  rfl

theorem readInstruction_of_readStatement {κ : Type} {registry : Registry κ} {code rest : List Char}
    {i : Instruction} (h : readStatement registry code = .ok (.instruction i, rest)) :
    code.head? ≠ some '.' ∧ readInstruction registry code = .ok (i, rest) := by
  unfold readStatement at h
  split at h
  · obtain ⟨_, -, heq⟩ := Except.bind_eq_ok.1 h
    cases heq
  · split at h
    · obtain ⟨_, -, heq⟩ := Except.map_eq_ok.1 h
      cases heq
    · next hdot =>
      obtain ⟨⟨i', rest'⟩, hread, heq⟩ := Except.map_eq_ok.1 h
      cases heq
      refine ⟨fun hhead => ?_, hread⟩
      obtain ⟨body, hbody⟩ := List.head?_eq_some_iff.1 hhead
      exact hdot body hbody

/-- An integer of an instruction stands on its line at one of the places. -/
theorem exists_lineAround {κ : Type} {registry : Registry κ} {content : List Char} {i : Instruction}
    (h : readCode registry (codeOf content) = .ok (.instruction i)) {f : Slot × Operand}
    (hf : f ∈ i.operands.toList) {m : SizedInt} (hm : f.2.toAttribute = .integer m) :
    ∃ place before number after tail, content = before ++ (number ++ (after ++ tail)) ∧
      LineAround registry i.opcode place before after tail ∧ place.Writes number m.value := by
  obtain ⟨rest, hstatement, hrest⟩ := readCode_iff.1 h
  obtain ⟨hdot, hread⟩ := readInstruction_of_readStatement hstatement
  obtain ⟨mnemonic, space, form, operands, hsymbol, hop, hspace, hlongest, hoperands, hcode⟩ :=
    exists_of_readInstruction hread
  obtain rfl := eq_nil_of_inline (stops_reverse_codeOf content)
    ⟨mnemonic ++ (space ++ operands), by simp [hcode]⟩ hrest
  rw [List.append_nil] at hlongest hcode
  obtain ⟨place, before, number, after, rfl, haround, hnumber⟩ :=
    exists_operandsAround hoperands hf hm
  have hplain : ∀ c ∈ codeOf content, c ≠ '#' ∧ c ≠ '"' := by
    rw [hcode]
    intro c hc
    have hne := ne_of_mem_statement hsymbol hspace hoperands.chars c hc
    exact ⟨hne.1, hne.2.1⟩
  have hne : space ≠ [] := by
    rintro rfl
    obtain ⟨c, later, hcons, hc⟩ := hoperands.head_isAlpha (List.ne_nil_of_mem hf)
    rw [hcons] at hlongest
    have hstops : isSymbolChar c = false := stops_cons.1 hlongest
    simp [isSymbolChar, isSymbolStart, hc] at hstops
  have hmnemonic : IsMnemonic registry (String.ofList mnemonic) i.opcode := by
    refine ⟨by simpa using hsymbol, ?_, hop⟩
    obtain ⟨c, later, rfl, -⟩ := exists_eq_cons_of_isSymbol hsymbol
    simpa [hcode] using hdot
  obtain ⟨lead, tail, hlead, htail, hline⟩ := exists_tail hplain
  refine ⟨place, _, number, after, tail, ?_,
    .instruction hlead hmnemonic hspace hne haround htail, hnumber⟩
  rw [hline, hcode]
  simp

/-! ### Lines of a text -/

/-- After the lines `front`, the text has a line with the given content. -/
def HasLine (text : String) (front : List Line) (content : List Char) : Prop :=
  ∃ ending back, lines text.toList = front ++ ⟨content, ending⟩ :: back

section HasLine

variable {κ : Type} {registry : Registry κ} {text : String} {front : List Line}
  {content : List Char} {p : Program}

theorem exists_hasLine (h : parse registry text = .ok p) {op : Op} (hop : op ∈ p) :
    ∃ front content, HasLine text front content ∧ readCode registry (codeOf content) = .ok op := by
  obtain ⟨front, line, back, hlines, hread⟩ := exists_line_of_mem h hop
  exact ⟨front, line.content, ⟨line.ending, back, hlines⟩, hread⟩

/-- If a text is read, so are the lines before any line. -/
theorem HasLine.readLine_front (hline : HasLine text front content)
    (h : parse registry text = .ok p) :
    ∀ l ∈ front, ∃ op?, ∀ start, readLine registry start l.content = .ok op? := by
  obtain ⟨ending, back, hlines⟩ := hline
  intro l hl
  refine readLine_of_readLines h l ?_
  rw [hlines]
  exact List.mem_append_left _ hl

/-- If the lines before it are read, the first line that is not read is reported. -/
theorem parse_eq_error {e : ParseError} (hline : HasLine text front content)
    (hfront : ∀ l ∈ front, ∃ op?, ∀ start, readLine registry start l.content = .ok op?)
    (h : readLine registry (Position.start.advance (front.flatMap Line.text)) content = .error e) :
    parse registry text = .error e := by
  obtain ⟨ending, back, hlines⟩ := hline
  rw [parse, hlines]
  exact readLines_eq_error hfront h

theorem hasLine_nil (htext : text.toList = content)
    (hne : content ≠ []) (hcontent : '\n' ∉ content) : HasLine text [] content :=
  ⟨[], [], by rw [htext, lines_of_notMem_newline hne hcontent]; rfl⟩

end HasLine

/-! ### Lines in the dialect -/

/-- The dialect knows the mnemonics of the catalog. -/
theorem isMnemonic_mnemonic (opcode : Opcode) : IsMnemonic .riscv opcode.mnemonic opcode where
  isSymbol := isSymbol_mnemonic opcode
  head?_ne := by simpa using head?_mnemonic opcode []
  op?_eq := op?_riscv.2 (.catalog opcode)

theorem inline_space : Inline [' '] :=
  List.forall_mem_singleton.2 rfl

theorem commaText_space : CommaText [',', ' '] :=
  .spaced inline_nil inline_space

/-- An instruction that has its line to itself. -/
theorem lineAround_riscv {opcode : Opcode} {place : Place} {before after : List Char}
    (h : OperandsAround opcode place before after) :
    LineAround .riscv opcode place (opcode.mnemonic.toList ++ ([' '] ++ before)) after [] := by
  have hlead : ∀ c ∈ ([] : List Char), isSpace c := by simp
  exact .instruction hlead (isMnemonic_mnemonic opcode) inline_space (by simp) h rfl

end RiscvDialect.Assembly.Grammar

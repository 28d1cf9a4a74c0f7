import RiscvDialect.Proofs.Generic.Soundness
import RiscvDialect.Proofs.Register

/-!
# What the grammar writes is read

The other direction: whatever the grammar has at the start of a text, the readers take off the text
with the same meaning. The grammar may stop anywhere, while the readers go on as long as they can,
so each statement says what must not come next: no further digit after a number, no brace after an
op without a dictionary. Blanks are the exception, since skipping them is harmless. A derivation may
skip fewer blanks than a reader does, and both then stand at the same token.

## Main statements

* `Blank.skipBlank_eq`: skipping blanks does not depend on where one starts to skip them
* `readAttribute_of_valueText`, `readEntries_of_entriesText`, `readOp_of_opText`: the readers
* `parseProgram_of_programText`: a whole text
* `parseProgram_eq_ok`: a program is read exactly from the texts that the grammar has for it
-/

namespace RiscvDialect.Generic.Grammar

open Text

/-! ### Blanks and signs -/

/-- Blanks that were skipped are skipped anyway. -/
theorem Blank.skipBlank_eq {text rest : List Char} (h : Blank text rest) :
    skipBlank text = skipBlank rest := by
  induction h with
  | nothing => rfl
  | space hc _ ih => rw [skipBlank_cons_of_isBlankChar hc, ih]
  | comment hbody hend _ ih => rw [skipBlank_comment hbody hend, ih]

theorem skipBlank_skipBlank (text : List Char) : skipBlank (skipBlank text) = skipBlank text :=
  (blank_skipBlank text).skipBlank_eq.symm

/-- Neither blank nor the start of a comment. -/
def IsSolid (c : Char) : Prop :=
  isBlankChar c = false ∧ c ≠ '/'

instance (c : Char) : Decidable (IsSolid c) :=
  inferInstanceAs (Decidable (_ ∧ _))

theorem skipBlank_of_isSolid {c : Char} {text : List Char} (hc : IsSolid c) :
    skipBlank (c :: text) = c :: text := by
  simp [skipBlank, skipBlankFrom, hc.1, hc.2]

theorem Blank.skipBlank_eq_cons {c : Char} {text rest : List Char} (h : Blank text (c :: rest))
    (hc : IsSolid c) : skipBlank text = c :: rest := by
  rw [h.skipBlank_eq, skipBlank_of_isSolid hc]

/-- A sign is found after blanks. -/
theorem Blank.expectChar_eq {c : Char} {text rest : List Char} (h : Blank text (c :: rest))
    (hc : IsSolid c) : expectChar c (skipBlank text) = .ok rest := by
  rw [h.skipBlank_eq_cons hc]
  simp [expectChar]

theorem not_isDigit_of_isBlankChar {c : Char} (h : isBlankChar c) : c.isDigit = false := by
  rcases isBlankChar_iff.1 h with rfl | rfl | rfl | rfl <;> rfl

theorem isSolid_of_isDigit {c : Char} (h : c.isDigit) : IsSolid c := by
  constructor
  · rw [Bool.eq_false_iff]
    intro hblank
    exact absurd h (Bool.eq_false_iff.1 (not_isDigit_of_isBlankChar hblank))
  · rintro rfl
    exact absurd h (by decide)

/-- Blanks do not continue a number. -/
theorem Blank.stops_isDigit {text rest : List Char} (h : Blank text rest)
    (hrest : Stops Char.isDigit rest) : Stops Char.isDigit text := by
  cases h with
  | nothing => exact hrest
  | space hc => exact stops_cons.2 (not_isDigit_of_isBlankChar hc)
  | comment => simp

/-! ### Tokens -/

theorem readQuotedBody_of_stringBody {text value rest : List Char}
    (h : StringBody text value rest) : readQuotedBody text = .ok (value, rest) := by
  induction h with
  | close rest => rfl
  | plain hquote hbackslash _ ih =>
    rw [readQuotedBody.eq_5 _ _ hquote (fun h => absurd h hbackslash)
      (fun _ _ h => absurd h hbackslash), ih]
    rfl
  | escape he _ ih =>
    rw [readQuotedBody, unescape?_eq_some.2 he]
    simp only [ih]
    rfl

theorem readQuoted_of_stringText (what : String) {value : String} {text rest : List Char}
    (h : StringText text value rest) : readQuoted what text = .ok (value, rest) := by
  obtain ⟨hbody⟩ := h
  rw [readQuoted, readQuotedBody_of_stringBody hbody]
  rfl

theorem readDecimalNat_of_digitsText {text rest : List Char} {n : Nat}
    (h : DigitsText text n rest) (hrest : Stops Char.isDigit rest) :
    Numeral.readDecimalNat text = some (n, rest) := by
  obtain ⟨hne, hdigits⟩ := h
  exact Numeral.readDecimalNat_append hne hdigits hrest

/-- A number starts with a digit. -/
theorem DigitsText.head {text rest : List Char} {n : Nat} (h : DigitsText text n rest) :
    ∃ c later, text = c :: later ∧ c.isDigit := by
  obtain @⟨digits, hne, hdigits⟩ := h
  cases digits with
  | nil => exact absurd rfl hne
  | cons c digits => exact ⟨c, _, List.cons_append, hdigits c List.mem_cons_self⟩

/-- An integer starts with a digit or a minus sign. -/
theorem IntegerText.head {text rest : List Char} {i : Int} (h : IntegerText text i rest) :
    ∃ c later, text = c :: later ∧ (c.isDigit ∨ c = '-') := by
  cases h with
  | nonneg h =>
    obtain ⟨c, later, htext, hc⟩ := h.head
    exact ⟨c, later, htext, .inl hc⟩
  | neg h => exact ⟨'-', _, rfl, .inr rfl⟩

theorem readDecimal_of_integerText {text rest : List Char} {i : Int}
    (h : IntegerText text i rest) (hrest : Stops Char.isDigit rest) :
    Numeral.readDecimal text = some (i, rest) := by
  cases h with
  | nonneg h =>
    have hread := readDecimalNat_of_digitsText h hrest
    obtain ⟨c, digits, rfl, hc⟩ := h.head
    rw [Numeral.readDecimal, Numeral.readSigned_cons_of_isDigit hc, hread]
    rfl
  | neg h =>
    rw [Numeral.readDecimal, Numeral.readSigned, readDecimalNat_of_digitsText h hrest]
    rfl

/-! ### Values -/

variable {registry : Registry}

theorem readWidth_of_digitsText {text rest : List Char} {width : Nat}
    (h : DigitsText text width rest) (hrest : Stops Char.isDigit rest) (hwidth : width ≤ 64) :
    readWidth ('i' :: text) = .ok (width, rest) := by
  have hlt : width < 0x100000000 := by omega
  simp only [readWidth, readDecimalNat_of_digitsText h hrest, if_pos hlt]

theorem readSizedInt_of_text {text afterValue afterColon afterBlank rest : List Char}
    {i : SizedInt} (hvalue : IntegerText text i.value.toInt afterValue)
    (hcolon : Blank afterValue (':' :: afterColon)) (htype : Blank afterColon ('i' :: afterBlank))
    (hwidth : DigitsText afterBlank i.width rest) (hrest : Stops Char.isDigit rest) :
    readSizedInt text = .ok (i, rest) := by
  have hnumber := readDecimal_of_integerText hvalue (hcolon.stops_isDigit (by simp))
  simp only [readSizedInt, hnumber, Numeral.int64?_toInt, hcolon.expectChar_eq (by decide),
    htype.skipBlank_eq_cons (c := 'i') (by decide),
    readWidth_of_digitsText hwidth hrest i.width_le, SizedInt.ofWidth_width, bind, Except.bind,
    Fault.ofRefusal, pure, Except.pure]

/-- No parameter contains the bracket that closes it. -/
theorem ParameterText.not_mem {kind : ParameterKind} {parameter : List Char} {value : Attribute}
    (h : ParameterText kind parameter value) : '>' ∉ parameter := by
  intro hmem
  cases h with
  | register h =>
    have := h.isAlphanum '>' (by simpa using hmem)
    exact absurd this (by decide)
  | label l => exact absurd (isSymbolChar_of_mem l.isSymbol_name hmem) (by decide)

theorem readParameter_of_text {text name parameter rest : List Char} {kind : ParameterKind}
    {value : Attribute} (hname : name ≠ []) (hchars : ∀ c ∈ name, isAttributeNameChar c)
    (hknown : registry.Knows (.attr (String.ofList name) kind))
    (hvalue : ParameterText kind parameter value) :
    readParameter registry text (name ++ '<' :: (parameter ++ '>' :: rest)) =
      .ok (value, rest) := by
  have hopen : Stops isAttributeNameChar ('<' :: (parameter ++ '>' :: rest)) := by simp; decide
  have hinside : ∀ c ∈ parameter, c != '>' := by
    intro c hc
    rw [bne_iff_ne]
    rintro rfl
    exact hvalue.not_mem hc
  have hclose : Stops (· != '>') ('>' :: rest) := by simp
  have hread : kind.read (parameter ++ '>' :: rest) = .ok (value, '>' :: rest) := by
    simp [ParameterKind.read, takeWhile_append_of_stops hinside hclose,
      dropWhile_append_of_stops hinside hclose, attributeOf_eq_ok.2 hvalue, Except.map]
  rw [readParameter]
  rw [takeWhile_append_of_stops hchars hopen, dropWhile_append_of_stops hchars hopen]
  split
  · exact absurd rfl hname
  · rw [show registry.attribute? (String.ofList name) = some kind from hknown]
    simp [expectChar, hread, Fault.ofRefusal, bind, Except.bind, pure, Except.pure]

/-- What starts as an integer is read as one. -/
theorem readAttribute_of_integerText {text afterValue : List Char} {number : Int}
    (h : IntegerText text number afterValue) :
    readAttribute registry text = (readSizedInt text).map fun (i, rest) => (.integer i, rest) := by
  obtain ⟨c, later, rfl, hc⟩ := h.head
  have hfirst : c ≠ '!' ∧ c ≠ '"' := by
    constructor <;> rintro rfl <;> exact absurd hc (by decide)
  unfold readAttribute
  split
  · next heq => exact absurd (List.cons.inj heq).1 hfirst.1
  · next heq => exact absurd (List.cons.inj heq).1 hfirst.2
  · rfl

/-- A value is read up to its end. Only an integer could go on with further digits. -/
theorem readAttribute_of_valueText {text rest : List Char} {value : Attribute}
    (h : ValueText registry.Knows text value rest)
    (hrest : value.kind = .integer → Stops Char.isDigit rest) :
    readAttribute registry text = .ok (value, rest) := by
  cases h with
  | parameter hname hchars hknown hvalue =>
    exact readParameter_of_text hname hchars hknown hvalue
  | string h =>
    have hread := readQuoted_of_stringText "attribute value" h
    obtain ⟨hbody⟩ := h
    simp [readAttribute, hread, Except.map]
  | integer hvalue hcolon htype hwidth =>
    rw [readAttribute_of_integerText hvalue,
      readSizedInt_of_text hvalue hcolon htype hwidth (hrest rfl)]
    rfl

/-- A value starts with a character that is not skipped. -/
theorem ValueText.head {known : Registration → Prop} {text rest : List Char} {value : Attribute}
    (h : ValueText known text value rest) : ∃ c later, text = c :: later ∧ IsSolid c := by
  cases h with
  | parameter => exact ⟨'!', _, rfl, by decide⟩
  | string h =>
    obtain ⟨-⟩ := h
    exact ⟨'"', _, rfl, by decide⟩
  | integer h =>
    obtain ⟨c, later, rfl, hc⟩ := h.head
    refine ⟨c, later, rfl, ?_⟩
    rcases hc with hc | rfl
    · exact isSolid_of_isDigit hc
    · decide

/-! ### Dictionaries -/

/-- An entry is read up to the sign after it, with the blanks in between. -/
theorem readEntry_of_entryText {c : Char} {text rest : List Char} {entry : String × Attribute}
    (h : EntryText registry.Knows text entry (c :: rest)) (hc : IsSolid c)
    (hdigit : c.isDigit = false) : readEntry registry text = .ok (entry, c :: rest) := by
  cases h with
  | keyed hkey hsign hblank hvalue hrest =>
    have hread := readAttribute_of_valueText hvalue fun _ => hrest.stops_isDigit (by simpa)
    obtain ⟨d, later, rfl, hd⟩ := hvalue.head
    simp only [readEntry, readQuoted_of_stringText _ hkey,
      hsign.expectChar_eq (c := '=') (by decide), hblank.skipBlank_eq_cons hd, hread,
      hrest.skipBlank_eq_cons hc, bind, Except.bind, pure, Except.pure]

/-- Entries start with a quote. -/
theorem EntriesText.head {known : Registration → Prop} {text rest : List Char}
    {entries : Dictionary} (h : EntriesText known text entries rest) :
    ∃ later, text = '"' :: later := by
  have hentry : ∀ {text rest entry}, EntryText known text entry rest → ∃ later, text = '"' :: later
  | _, _, _, .keyed (.quoted _) _ _ _ _ => ⟨_, rfl⟩
  cases h with
  | last h => exact hentry h
  | more h => exact hentry h

theorem readEntries_of_entriesText {text rest : List Char} {entries : Dictionary}
    (h : EntriesText registry.Knows text entries rest) :
    readEntries registry text = .ok (entries, rest) := by
  induction h with
  | last h =>
    have hentry := readEntry_of_entryText h (by decide) (by decide)
    rw [readEntries]
    split <;> simp_all
  | more hentry hblank hlater ih =>
    obtain ⟨later, rfl⟩ := hlater.head
    have hentry := readEntry_of_entryText hentry (by decide) (by decide)
    have hskip := hblank.skipBlank_eq_cons (by decide)
    rw [readEntries]
    split <;> simp_all [Except.map]

theorem readDictionary_of_dictionaryText {text rest : List Char} {entries : Dictionary}
    (h : DictionaryText registry.Knows text entries rest) :
    readDictionary registry text = .ok (entries, rest) := by
  cases h with
  | empty h => simp [readDictionary, h.skipBlank_eq_cons (c := '}') (by decide)]
  | entries hblank h =>
    obtain ⟨later, rfl⟩ := h.head
    simp [readDictionary, hblank.skipBlank_eq_cons (c := '"') (by decide),
      readEntries_of_entriesText h]

/-! ### Ops and programs -/

theorem DictionaryText.head {known : Registration → Prop} {text rest : List Char}
    {entries : Dictionary} (h : DictionaryText known text entries rest) :
    ∃ later, text = '{' :: later := by
  cases h <;> exact ⟨_, rfl⟩

/-- An op is what its name and its dictionary make of it. -/
theorem readOp_eq {text afterName afterOpen afterClose rest : List Char} {name : String}
    {kind : OpKind} {entries : Dictionary} (hname : StringText text name afterName)
    (hkind : registry.op? name = some kind) (hopen : Blank afterName ('(' :: afterOpen))
    (hclose : Blank afterOpen (')' :: afterClose))
    (hentries : readDictionary registry (skipBlank afterClose) = .ok (entries, rest)) :
    readOp registry text =
      (Fault.ofRefusal text (kind.build entries)).map fun op => (op, rest) := by
  simp only [readOp, readQuoted_of_stringText _ hname, hkind,
    hopen.expectChar_eq (c := '(') (by decide), hclose.expectChar_eq (c := ')') (by decide),
    hentries, Fault.ofRefusal, bind, Except.bind, pure, Except.pure]
  cases kind.build entries <;> rfl

/-- The part of an op before its dictionary is read, and the dictionary is left to be read. -/
theorem readOp_of_text {text afterName afterOpen afterClose rest : List Char} {name : String}
    {entries : Dictionary} {op : Op} (hname : StringText text name afterName)
    (hopen : Blank afterName ('(' :: afterOpen)) (hclose : Blank afterOpen (')' :: afterClose))
    (hentries : readDictionary registry (skipBlank afterClose) = .ok (entries, rest))
    (hop : Denotes registry.Knows name entries op) :
    readOp registry text = .ok (op, rest) := by
  rw [readOp_eq hname hop.known_name hopen hclose hentries,
    OpKind.build_eq_ok.2 ⟨rfl, hop.perm_attributes⟩]
  rfl

/-- An op without a dictionary is read with the blanks after it. No dictionary may follow. -/
theorem readOp_of_bare {text afterName afterOpen rest : List Char} {name : String} {op : Op}
    (hname : StringText text name afterName) (hopen : Blank afterName ('(' :: afterOpen))
    (hclose : Blank afterOpen (')' :: rest)) (hop : Denotes registry.Knows name [] op)
    (hbrace : (skipBlank rest).head? ≠ some '{') :
    readOp registry text = .ok (op, skipBlank rest) := by
  refine readOp_of_text hname hopen hclose ?_ hop
  unfold readDictionary
  split
  · next heq => simp [heq] at hbrace
  · rfl

/-- An op with a dictionary is read up to the end of the dictionary. -/
theorem readOp_of_dictionaryText {text afterName afterOpen afterClose inBraces rest : List Char}
    {name : String} {entries : Dictionary} {op : Op} (hname : StringText text name afterName)
    (hopen : Blank afterName ('(' :: afterOpen)) (hclose : Blank afterOpen (')' :: afterClose))
    (hblank : Blank afterClose inBraces)
    (hentries : DictionaryText registry.Knows inBraces entries rest)
    (hop : Denotes registry.Knows name entries op) : readOp registry text = .ok (op, rest) := by
  refine readOp_of_text hname hopen hclose ?_ hop
  obtain ⟨later, rfl⟩ := hentries.head
  rw [hblank.skipBlank_eq_cons (by decide)]
  exact readDictionary_of_dictionaryText hentries

/-- An op is read, and maybe blanks after it. -/
theorem readOp_of_opText {text rest : List Char} {op : Op}
    (h : OpText registry.Knows text op rest) (hbrace : (skipBlank rest).head? ≠ some '{') :
    ∃ left, readOp registry text = .ok (op, left) ∧ skipBlank left = skipBlank rest := by
  cases h with
  | bare hname hopen hclose hop =>
    exact ⟨_, readOp_of_bare hname hopen hclose hop hbrace, skipBlank_skipBlank rest⟩
  | withDictionary hname hopen hclose hblank hentries hop =>
    exact ⟨rest, readOp_of_dictionaryText hname hopen hclose hblank hentries hop, rfl⟩

/-- An op starts with a quote. -/
theorem OpText.head {known : Registration → Prop} {text rest : List Char} {op : Op}
    (h : OpText known text op rest) : ∃ later, text = '"' :: later := by
  cases h with
  | bare hname => obtain ⟨-⟩ := hname; exact ⟨_, rfl⟩
  | withDictionary hname => obtain ⟨-⟩ := hname; exact ⟨_, rfl⟩

/-- Ops start with a quote, or with the closing brace if there are none. -/
theorem OpsText.head {known : Registration → Prop} {text rest : List Char} {p : Program}
    (h : OpsText known text p rest) : ∃ c later, text = c :: later ∧ (c = '"' ∨ c = '}') := by
  cases h with
  | close => exact ⟨'}', _, rfl, .inr rfl⟩
  | op hop =>
    obtain ⟨later, rfl⟩ := hop.head
    exact ⟨'"', later, rfl, .inl rfl⟩

theorem readOps_of_opsText {text rest : List Char} {p : Program}
    (h : OpsText registry.Knows text p rest) : readOps registry text = .ok (p, rest) := by
  induction h with
  | close => rw [readOps]
  | op hop hblank hlater ih =>
    obtain ⟨c, later, rfl, hc⟩ := hlater.head
    have hsolid : IsSolid c := by rcases hc with rfl | rfl <;> decide
    have hskip := hblank.skipBlank_eq_cons hsolid
    obtain ⟨left, hread, hleft⟩ := readOp_of_opText hop (by
      rw [hskip]
      rcases hc with rfl | rfl <;> simp)
    obtain ⟨opening, rfl⟩ := hop.head
    rw [readOps]
    · split
      · next heq => simp [hread] at heq
      · next heq =>
        rw [hread] at heq
        cases heq
        rw [hleft, hskip, ih]
        rfl
    · simp
    · simp

theorem readProgram_of_opsText {afterWord afterOpen opsText rest : List Char} {p : Program}
    (hopen : Blank afterWord ('{' :: afterOpen)) (hblank : Blank afterOpen opsText)
    (hops : OpsText registry.Knows opsText p rest) :
    readProgram registry ("module".toList ++ afterWord) = .ok (p, rest) := by
  obtain ⟨c, later, rfl, hc⟩ := hops.head
  have hsolid : IsSolid c := by rcases hc with rfl | rfl <;> decide
  have hword : "module".toList.isPrefixOf? ("module".toList ++ afterWord) = some afterWord :=
    rfl
  simp only [readProgram, hword, hopen.expectChar_eq (c := '{') (by decide),
    hblank.skipBlank_eq_cons hsolid, readOps_of_opsText hops, bind, Except.bind]

/-- A whole text is read if its reader reads it, and nothing but blanks is left then. -/
theorem parseWhole_of_isSolid {α : Type} {read : List Char → Except Fault (α × List Char)}
    {text : String} {value : α} {c : Char} {later rest : List Char}
    (htext : text.toList = c :: later) (hc : IsSolid c)
    (hread : read text.toList = .ok (value, rest)) (hrest : skipBlank rest = []) :
    parseWhole read text = .ok value := by
  refine parseWhole_eq_ok.2 ⟨rest, ?_, hrest⟩
  rwa [htext, skipBlank_of_isSolid hc, ← htext]

/-- A failure of its reader is a failure to read the whole text. -/
theorem parseWhole_of_error {α : Type} {read : List Char → Except Fault (α × List Char)}
    {text : String} {fault : Fault} {c : Char} {later : List Char}
    (htext : text.toList = c :: later) (hc : IsSolid c) (hread : read text.toList = .error fault) :
    parseWhole read text = .error (fault.report .start text.toList) := by
  have hskip : skipBlank text.toList = text.toList := by rw [htext, skipBlank_of_isSolid hc]
  rw [parseWhole, hskip, hread]
  rfl

/-- A whole text is read if the grammar has it. -/
theorem parseProgram_of_programText {text : String} {p : Program}
    (h : ProgramText registry.Knows text.toList p) : parseProgram registry text = .ok p := by
  obtain ⟨hword, hopen, hblank, hops, hend⟩ := h
  refine parseWhole_eq_ok.2 ⟨_, ?_, hend.skipBlank_eq⟩
  rw [hword.skipBlank_eq_cons (c := 'm') (by decide)]
  exact readProgram_of_opsText hopen hblank hops

/-- A program is read exactly from the texts that the grammar has for it. -/
theorem parseProgram_eq_ok {text : String} {p : Program} :
    parseProgram registry text = .ok p ↔ ProgramText registry.Knows text.toList p :=
  ⟨programText_of_parseProgram, parseProgram_of_programText⟩

end RiscvDialect.Generic.Grammar

import RiscvDialect.Proofs.Generic.Grammar
import RiscvDialect.Proofs.Numeral
import RiscvDialect.Proofs.Registry
import RiscvDialect.Text.Search

/-!
# What is read is written by the grammar

Each reader of the generic format takes off the start of a text what the grammar has there, with
the meaning that the grammar gives to it. The names known to the grammar are those of the registry
that the reader is given.

## Main statements

* `blank_skipBlank`: what is skipped is blank
* `valueText_of_readAttribute`, `entriesText_of_readEntries`, `opText_of_readOp`: the readers
* `programText_of_parseProgram`: a whole text
-/

namespace RiscvDialect.Generic.Grammar

open Text

/-! ### Tokens -/

/-- A comment is skipped up to the newline that ends it. -/
theorem skipBlankFrom_comment {body later : List Char} (hbody : '\n' ∉ body)
    (hend : ∀ c ∈ later.head?, c = '\n') :
    skipBlankFrom true (body ++ later) = skipBlank later := by
  induction body with
  | nil =>
    cases later with
    | nil => rfl
    | cons c later =>
      obtain rfl : c = '\n' := hend c (by simp)
      rfl
  | cons c body ih =>
    simp only [List.mem_cons, not_or] at hbody
    have hc : (c != '\n') = true := by simpa using Ne.symm hbody.1
    simp [skipBlankFrom, hc, ih hbody.2]

theorem skipBlank_cons_of_isBlankChar {c : Char} {text : List Char} (hc : isBlankChar c) :
    skipBlank (c :: text) = skipBlank text := by
  simp [skipBlank, skipBlankFrom, hc]

theorem skipBlank_comment {body later : List Char} (hbody : '\n' ∉ body)
    (hend : ∀ c ∈ later.head?, c = '\n') :
    skipBlank ('/' :: '/' :: (body ++ later)) = skipBlank later := by
  rw [← skipBlankFrom_comment hbody hend]
  rfl

/-- What is skipped is blank. -/
theorem blank_skipBlank (text : List Char) : Blank text (skipBlank text) := by
  match text with
  | [] => exact .nothing _
  | c :: rest =>
    by_cases hspace : isBlankChar c
    · rw [skipBlank_cons_of_isBlankChar hspace]
      exact .space hspace (blank_skipBlank rest)
    · by_cases hslash : c = '/' ∧ rest.head? = some '/'
      · obtain ⟨rfl, hnext⟩ := hslash
        obtain ⟨comment, hcomment⟩ := List.head?_eq_some_iff.1 hnext
        obtain ⟨body, later, hsplit, hbody, hlater, -⟩ := exists_run (· != '\n') comment
        have hnot : '\n' ∉ body := fun hmem => by simpa using hbody _ hmem
        have hend : ∀ c ∈ later.head?, c = '\n' := fun c hc => by simpa using hlater c hc
        have hshorter : later.length < ('/' :: rest).length := by
          simp [hcomment, hsplit]
          omega
        rw [hcomment, hsplit, skipBlank_comment hnot hend]
        exact .comment hnot hend (blank_skipBlank later)
      · have hstay : skipBlank (c :: rest) = c :: rest := by
          simp [skipBlank, skipBlankFrom, hspace, hslash]
        rw [hstay]
        exact .nothing _
termination_by text.length
decreasing_by all_goals first | assumption | simp

theorem unescape?_eq_some {e c : Char} : unescape? e = some c ↔ (e, c) ∈ escapes := by
  constructor
  · intro h
    rw [unescape?] at h
    split at h
    · next he => cases h; subst he; decide
    · split at h
      · next he => cases h; subst he; decide
      · split at h
        · next he => cases h; subst he; decide
        · split at h
          · next he => cases h; subst he; decide
          · simp at h
  · intro h
    simp only [escapes, List.mem_cons, Prod.mk.injEq, List.not_mem_nil, or_false] at h
    rcases h with ⟨rfl, rfl⟩ | ⟨rfl, rfl⟩ | ⟨rfl, rfl⟩ | ⟨rfl, rfl⟩ <;> rfl

theorem stringBody_of_readQuotedBody {text value rest : List Char}
    (h : readQuotedBody text = .ok (value, rest)) : StringBody text value rest := by
  fun_induction readQuotedBody text generalizing value rest with
  | case1 => simp [Fault.expected] at h
  | case2 tail => cases h; exact .close _
  | case3 => simp [Fault.expected] at h
  | case4 e tail c he ih =>
    obtain ⟨⟨v, r⟩, hr, hp⟩ := Except.map_eq_ok.1 h
    cases hp
    exact .escape (unescape?_eq_some.1 he) (ih hr)
  | case5 => simp [Fault.expected] at h
  | case6 c tail hquote hlone hescape ih =>
    obtain ⟨⟨v, r⟩, hr, hp⟩ := Except.map_eq_ok.1 h
    cases hp
    refine .plain hquote (fun hc => ?_) (ih hr)
    cases tail with
    | nil => exact hlone hc rfl
    | cons e tail => exact hescape e tail hc rfl

theorem stringText_of_readQuoted {what value : String} {text rest : List Char}
    (h : readQuoted what text = .ok (value, rest)) : StringText text value rest := by
  unfold readQuoted at h
  split at h
  · obtain ⟨⟨v, r⟩, hr, hp⟩ := Except.bind_eq_ok.1 h
    cases hp
    exact .quoted (stringBody_of_readQuotedBody hr)
  · simp [Fault.expected] at h

theorem digitsText_of_readDecimalNat {text rest : List Char} {n : Nat}
    (h : Numeral.readDecimalNat text = some (n, rest)) : DigitsText text n rest := by
  obtain ⟨digits, hne, hdigits, -, rfl, rfl⟩ := Numeral.readDecimalNat_eq_some.1 h
  exact .digits hne hdigits rest

theorem integerText_of_readDecimal {text rest : List Char} {i : Int}
    (h : Numeral.readDecimal text = some (i, rest)) : IntegerText text i rest := by
  unfold Numeral.readDecimal Numeral.readSigned at h
  split at h
  · obtain ⟨⟨n, r⟩, hr, hp⟩ := Option.map_eq_some_iff.1 h
    cases hp
    exact .neg (digitsText_of_readDecimalNat hr)
  · obtain ⟨⟨n, r⟩, hr, hp⟩ := Option.map_eq_some_iff.1 h
    cases hp
    exact .nonneg (digitsText_of_readDecimalNat hr)

theorem eq_cons_of_expectChar {c : Char} {text rest : List Char}
    (h : expectChar c text = .ok rest) : text = c :: rest := by
  unfold expectChar at h
  split at h
  · split at h
    · next hc => cases h; rw [hc]
    · simp [Fault.expected] at h
  · simp [Fault.expected] at h

/-- Blanks lead to a token that is expected after them. -/
theorem blank_of_expectChar {c : Char} {text rest : List Char}
    (h : expectChar c (skipBlank text) = .ok rest) : Blank text (c :: rest) :=
  eq_cons_of_expectChar h ▸ blank_skipBlank text

/-! ### Values -/

variable {registry : Registry}

theorem digitsText_of_readWidth {text rest : List Char} {width : Nat}
    (h : readWidth text = .ok (width, rest)) :
    ∃ digits, text = 'i' :: digits ∧ DigitsText digits width rest := by
  unfold readWidth at h
  split at h
  · next digits =>
    split at h
    · next hd =>
      split at h
      · cases h
        exact ⟨digits, rfl, digitsText_of_readDecimalNat hd⟩
      · simp at h
    · simp [Fault.expected] at h
  · simp [Fault.expected] at h

theorem value_width_of_ofWidth {value : Int64} {width : Nat} {i : SizedInt}
    (h : SizedInt.ofWidth value width = .ok i) : i.value = value ∧ i.width = width := by
  rw [SizedInt.ofWidth] at h
  split at h
  · cases h; exact ⟨rfl, rfl⟩
  · simp at h

theorem valueText_of_readSizedInt {known : Registration → Prop} {text rest : List Char}
    {i : SizedInt} (h : readSizedInt text = .ok (i, rest)) :
    ValueText known text (.integer i) rest := by
  rw [readSizedInt] at h
  split at h
  · simp [Fault.expected] at h
  · next number afterNumber hn =>
    split at h
    · simp at h
    · next value hv =>
      obtain ⟨afterColon, hc, h⟩ := Except.bind_eq_ok.1 h
      obtain ⟨⟨width, afterWidth⟩, hw, h⟩ := Except.bind_eq_ok.1 h
      obtain ⟨j, hj, h⟩ := Except.bind_eq_ok.1 h
      cases h
      obtain ⟨rfl, rfl⟩ := value_width_of_ofWidth (Fault.of_ofRefusal_eq_ok hj)
      obtain ⟨digits, htype, hdigits⟩ := digitsText_of_readWidth hw
      have hnumber := integerText_of_readDecimal hn
      rw [← Numeral.toInt_of_int64? hv] at hnumber
      exact .integer hnumber (blank_of_expectChar hc) (htype ▸ blank_skipBlank afterColon) hdigits

/-- A parameter has a value exactly if the grammar has it. -/
theorem attributeOf_eq_ok {kind : ParameterKind} {parameter : List Char} {value : Attribute} :
    kind.attributeOf (String.ofList parameter) = .ok value ↔
      ParameterText kind parameter value := by
  cases kind with
  | register =>
    refine Except.map_eq_ok.trans ⟨?_, ?_⟩
    · rintro ⟨r, hr, rfl⟩
      exact .register (Register.ofName_eq_ok.1 hr)
    · rintro ⟨h⟩
      exact ⟨_, Register.ofName_eq_ok.2 h, rfl⟩
  | label =>
    refine Except.map_eq_ok.trans ⟨?_, ?_⟩
    · rintro ⟨l, hl, rfl⟩
      have hname : parameter = l.name.toList := by
        rw [Label.name_of_ofName hl, String.toList_ofList]
      rw [hname]
      exact .label l
    · rintro ⟨⟩
      exact ⟨_, by rw [String.ofList_toList, Label.ofName_name], rfl⟩

theorem valueText_of_readParameter {text body rest : List Char} {value : Attribute}
    (h : readParameter registry text body = .ok (value, rest)) :
    ValueText registry.Knows ('!' :: body) value rest := by
  obtain ⟨name, afterName, rfl, hchars, -, htake, hdrop⟩ := exists_run isAttributeNameChar body
  rw [readParameter] at h
  rw [htake, hdrop] at h
  split at h
  · simp [Fault.expected] at h
  · next hne =>
    split at h
    · simp at h
    · next kind hkind =>
      obtain ⟨parameter, hopen, h⟩ := Except.bind_eq_ok.1 h
      obtain ⟨⟨v, afterParameter⟩, hp, h⟩ := Except.bind_eq_ok.1 h
      obtain ⟨afterBracket, hclose, h⟩ := Except.bind_eq_ok.1 h
      cases h
      obtain ⟨v, hv, hread⟩ := Except.map_eq_ok.1 (Fault.of_ofRefusal_eq_ok hp)
      cases hread
      have hparameter : parameter = parameter.takeWhile (· != '>') ++ '>' :: rest := by
        rw [← eq_cons_of_expectChar hclose, List.takeWhile_append_dropWhile]
      rw [eq_cons_of_expectChar hopen, hparameter]
      exact .parameter (by rintro rfl; exact hne rfl) hchars hkind (attributeOf_eq_ok.1 hv) rest

theorem valueText_of_readAttribute {text rest : List Char} {value : Attribute}
    (h : readAttribute registry text = .ok (value, rest)) :
    ValueText registry.Knows text value rest := by
  unfold readAttribute at h
  split at h
  · exact valueText_of_readParameter h
  · obtain ⟨⟨s, r⟩, hr, hp⟩ := Except.map_eq_ok.1 h
    cases hp
    exact .string (stringText_of_readQuoted hr)
  · obtain ⟨⟨i, r⟩, hr, hp⟩ := Except.map_eq_ok.1 h
    cases hp
    exact valueText_of_readSizedInt hr

/-! ### Dictionaries -/

theorem entryText_of_readEntry {text rest : List Char} {entry : String × Attribute}
    (h : readEntry registry text = .ok (entry, rest)) :
    EntryText registry.Knows text entry rest := by
  rw [readEntry] at h
  obtain ⟨⟨key, afterKey⟩, hk, h⟩ := Except.bind_eq_ok.1 h
  obtain ⟨afterSign, hs, h⟩ := Except.bind_eq_ok.1 h
  obtain ⟨⟨value, afterValue⟩, hv, h⟩ := Except.bind_eq_ok.1 h
  cases h
  exact .keyed (stringText_of_readQuoted hk) (blank_of_expectChar hs) (blank_skipBlank afterSign)
    (valueText_of_readAttribute hv) (blank_skipBlank afterValue)

theorem entriesText_of_readEntries {text rest : List Char} {entries : Dictionary}
    (h : readEntries registry text = .ok (entries, rest)) :
    EntriesText registry.Knows text entries rest := by
  fun_induction readEntries registry text generalizing entries rest with
  | case1 => simp at h
  | case2 text entry afterComma he ih =>
    obtain ⟨⟨later, r⟩, hr, hp⟩ := Except.map_eq_ok.1 h
    cases hp
    exact .more (entryText_of_readEntry he) (blank_skipBlank afterComma) (ih hr)
  | case3 text entry afterBrace he =>
    cases h
    exact .last (entryText_of_readEntry he)
  | case4 => simp [Fault.expected] at h

/-- Either there is a dictionary, or there is no brace and nothing is read. -/
theorem dictionaryText_of_readDictionary {text rest : List Char} {entries : Dictionary}
    (h : readDictionary registry text = .ok (entries, rest)) :
    DictionaryText registry.Knows text entries rest ∨ entries = [] ∧ rest = text := by
  unfold readDictionary at h
  split at h
  · next body =>
    have hblank := blank_skipBlank body
    split at h
    · next he =>
      cases h
      exact .inl (.empty (he ▸ hblank))
    · exact .inl (.entries hblank (entriesText_of_readEntries h))
  · cases h
    exact .inr ⟨rfl, rfl⟩

/-! ### Ops and programs -/

theorem knows_of_lookup {name : String} {text : List Char} {kind : OpKind}
    (h : Fault.ofRefusal text
      (match registry.op? name with
      | some kind => .ok kind
      | none => .error (.unknownOp name)) = .ok kind) : registry.Knows (.op name kind) := by
  cases hk : registry.op? name with
  | none => simp [hk, Fault.ofRefusal] at h
  | some k =>
    simp only [hk, Fault.ofRefusal, Except.ok.injEq] at h
    exact h ▸ hk

/-- An op is read, and maybe blanks after it. -/
theorem opText_of_readOp {text rest : List Char} {op : Op}
    (h : readOp registry text = .ok (op, rest)) :
    ∃ afterOp, OpText registry.Knows text op afterOp ∧ Blank afterOp rest := by
  rw [readOp] at h
  obtain ⟨⟨name, afterName⟩, hn, h⟩ := Except.bind_eq_ok.1 h
  obtain ⟨kind, hkind, h⟩ := Except.bind_eq_ok.1 h
  obtain ⟨afterOpen, ho, h⟩ := Except.bind_eq_ok.1 h
  obtain ⟨afterClose, hc, h⟩ := Except.bind_eq_ok.1 h
  obtain ⟨⟨entries, afterEntries⟩, he, h⟩ := Except.bind_eq_ok.1 h
  obtain ⟨built, hb, h⟩ := Except.bind_eq_ok.1 h
  cases h
  obtain ⟨rfl, hperm⟩ := OpKind.build_eq_ok.1 (Fault.of_ofRefusal_eq_ok hb)
  have hdenotes : Denotes registry.Knows name entries op := ⟨knows_of_lookup hkind, hperm⟩
  rcases dictionaryText_of_readDictionary he with hdict | ⟨rfl, rfl⟩
  · exact ⟨rest, .withDictionary (stringText_of_readQuoted hn) (blank_of_expectChar ho)
      (blank_of_expectChar hc) (blank_skipBlank afterClose) hdict hdenotes, .nothing rest⟩
  · exact ⟨afterClose, .bare (stringText_of_readQuoted hn) (blank_of_expectChar ho)
      (blank_of_expectChar hc) hdenotes, blank_skipBlank afterClose⟩

theorem Blank.trans {s t u : List Char} (h : Blank s t) (h' : Blank t u) : Blank s u := by
  induction h with
  | nothing => exact h'
  | space hc _ ih => exact .space hc (ih h')
  | comment hbody hend _ ih => exact .comment hbody hend (ih h')

theorem opsText_of_readOps {text rest : List Char} {p : Program}
    (h : readOps registry text = .ok (p, rest)) : OpsText registry.Knows text p rest := by
  fun_induction readOps registry text generalizing p rest with
  | case1 => simp [Fault.expected] at h
  | case2 => cases h; exact .close _
  | case3 => simp at h
  | case4 text _ _ op afterOp hop ih =>
    obtain ⟨⟨later, r⟩, hr, hp⟩ := Except.map_eq_ok.1 h
    cases hp
    obtain ⟨_, hop, hblank⟩ := opText_of_readOp hop
    exact .op hop (hblank.trans (blank_skipBlank afterOp)) (ih hr)

/-- A whole text was read if the reader read all of it, up to blanks. -/
theorem parseWhole_eq_ok {α : Type} {read : List Char → Except Fault (α × List Char)}
    {text : String} {value : α} : parseWhole read text = .ok value ↔
      ∃ rest, read (skipBlank text.toList) = .ok (value, rest) ∧ skipBlank rest = [] := by
  rw [parseWhole]
  dsimp only
  rw [Except.mapError_eq_ok, Except.bind_eq_ok]
  constructor
  · rintro ⟨⟨v, rest⟩, hread, h⟩
    dsimp only at h
    split at h
    · next hnil => cases h; exact ⟨rest, hread, hnil⟩
    · simp [Fault.expected] at h
  · rintro ⟨rest, hread, hrest⟩
    exact ⟨(value, rest), hread, by simp [hrest, pure, Except.pure]⟩

/-- A program is read from the word for a module and ops in braces, up to its closing brace. -/
theorem opsText_of_readProgram {text rest : List Char} {p : Program}
    (h : readProgram registry text = .ok (p, rest)) :
    ∃ afterWord afterOpen opsText, text = "module".toList ++ afterWord ∧
      Blank afterWord ('{' :: afterOpen) ∧ Blank afterOpen opsText ∧
      OpsText registry.Knows opsText p rest := by
  rw [readProgram] at h
  split at h
  · simp [Fault.expected] at h
  · next afterWord hword =>
    obtain ⟨afterOpen, ho, hops⟩ := Except.bind_eq_ok.1 h
    exact ⟨afterWord, afterOpen, _, eq_append_of_isPrefixOf? hword, blank_of_expectChar ho,
      blank_skipBlank afterOpen, opsText_of_readOps hops⟩

theorem programText_of_parseProgram {text : String} {p : Program}
    (h : parseProgram registry text = .ok p) : ProgramText registry.Knows text.toList p := by
  obtain ⟨rest, hread, hrest⟩ := parseWhole_eq_ok.1 h
  obtain ⟨afterWord, afterOpen, opsText, htext, hopen, hblank, hops⟩ :=
    opsText_of_readProgram hread
  exact .module (htext ▸ blank_skipBlank text.toList) hopen hblank hops
    (hrest ▸ blank_skipBlank rest)

end RiscvDialect.Generic.Grammar

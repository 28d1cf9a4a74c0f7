import RiscvDialect.Proofs.Assembly.RoundTrip
import RiscvDialect.Proofs.Generic.Completeness

/-!
# Programs are tokens with blanks between them

The grammar of the generic format says what comes after what, and allows blanks and comments between
any two tokens. Taken the other way round, a text of a program has a list of tokens, and the program
is the same wherever the blanks and comments between these stand. No token of the dialect contains a
newline: the names of ops and the keys of their values are fixed, registers and labels are symbols,
and the strings of directives were checked. Nor does a token contain a brace, unless it is a string;
so the braces between the tokens come in pairs.

## Main definitions

* `Spread`: some tokens with blanks around them
* `Nested`: tokens of the dialect, with their braces in pairs
* `Tokenized`: a relation between texts that holds because of some tokens

## Main statements

* `Nested.solid`: tokens stay on their lines
* `ValueText.tokenized`, `OpText.tokenized`: what the grammar has is tokenized
* `exists_tokens_of_programText`: the tokens of a program
-/

namespace RiscvDialect.Generic.Grammar

open Text Assembly

/-! ### Tokens and what is between them -/

/-- Some tokens, one after the other, with blanks in front of each of them and after the last. -/
inductive Spread : List (List Char) → List Char → List Char → Prop where
  | nil {text rest : List Char} (h : Blank text rest) : Spread [] text rest
  | cons {token text later rest : List Char} {tokens : List (List Char)}
    (hblank : Blank text (token ++ later)) (h : Spread tokens later rest) :
    Spread (token :: tokens) text rest

/-- The characters of tokens other than strings and braces. -/
def IsWordChar (c : Char) : Prop :=
  isSpace c = false ∧ c ∉ ['"', '/', '{', '}']

instance (c : Char) : Decidable (IsWordChar c) :=
  inferInstanceAs (Decidable (_ ∧ _))

/-- Tokens of the dialect, with their braces in pairs. A token is a word, a string, or a brace, and
a string does not contain newlines. -/
inductive Nested : List (List Char) → Prop where
  | nil : Nested []
  | word {word : List Char} {later : List (List Char)} (hne : word ≠ [])
    (hchars : ∀ c ∈ word, IsWordChar c) (hlater : Nested later) : Nested (word :: later)
  | string {body value : List Char} {later : List (List Char)} (hnewline : '\n' ∉ body)
    (hbody : ∀ rest, StringBody (body ++ rest) value rest) (hlater : Nested later) :
    Nested (('"' :: body) :: later)
  | braces {inner later : List (List Char)} (hinner : Nested inner) (hlater : Nested later) :
    Nested (['{'] :: (inner ++ ['}'] :: later))

section

variable {tokens tokens' : List (List Char)} {text mid mid' rest : List Char}

theorem Spread.append (h : Spread tokens text mid) (h' : Spread tokens' mid rest) :
    Spread (tokens ++ tokens') text rest := by
  induction h with
  | nil hblank =>
    cases h' with
    | nil hblank' => exact .nil (hblank.trans hblank')
    | cons hblank' hlater => exact .cons (hblank.trans hblank') hlater
  | cons hblank _ ih => exact .cons hblank (ih h')

theorem Spread.of_append (h : Spread (tokens ++ tokens') text rest) :
    ∃ mid, Spread tokens text mid ∧ Spread tokens' mid rest := by
  induction tokens generalizing text with
  | nil => exact ⟨text, .nil (.nothing text), h⟩
  | cons token tokens ih =>
    cases h with
    | cons hblank hlater =>
      obtain ⟨mid, hmid, hrest⟩ := ih hlater
      exact ⟨mid, .cons hblank hmid, hrest⟩

theorem Spread.of_blank (hblank : Blank text mid) (h : Spread tokens mid rest) :
    Spread tokens text rest :=
  Spread.append (.nil hblank) h

theorem Spread.trans_blank (h : Spread tokens text mid) (hblank : Blank mid rest) :
    Spread tokens text rest := by
  simpa using h.append (.nil hblank)

theorem Blank.suffix (h : Blank text rest) : rest <:+ text := by
  induction h with
  | nothing text => exact List.suffix_rfl
  | space _ _ ih => exact ih.trans (List.suffix_cons _ _)
  | @comment body text _ _ _ _ ih => exact ih.trans (List.suffix_append ('/' :: '/' :: body) text)

/-- Tokens and blanks are taken off the start of a text. -/
theorem Spread.suffix (h : Spread tokens text rest) : rest <:+ text := by
  induction h with
  | nil hblank => exact hblank.suffix
  | cons hblank _ ih => exact ih.trans ((List.suffix_append _ _).trans hblank.suffix)

theorem Nested.append (h : Nested tokens) (h' : Nested tokens') : Nested (tokens ++ tokens') := by
  induction h with
  | nil => exact h'
  | word hne hchars _ ih => exact .word hne hchars ih
  | string hnewline hbody _ ih => exact .string hnewline hbody ih
  | braces hinner _ _ ih =>
    rw [List.cons_append, List.append_assoc, List.cons_append]
    exact .braces hinner ih

/-! ### Tokens on their lines -/

/-- A string ends with its closing quote. -/
theorem StringBody.endsSolid {body value : List Char} (h : StringBody body value []) :
    EndsSolid body := by
  generalize hrest : ([] : List Char) = rest at h
  induction h with
  | close rest =>
    subst hrest
    exact ⟨[], '"', rfl, by decide⟩
  | plain _ _ _ ih => exact (ih hrest).append [_]
  | escape _ _ ih => exact (ih hrest).append [_, _]

/-- A token that stays on its line: it has no newline and no white space at its ends. -/
structure Solid (token : List Char) : Prop where
  newline_notMem : '\n' ∉ token
  stops_append : ∀ rest, Stops isSpace (token ++ rest)
  endsSolid : EndsSolid token

theorem solid_of_isWordChar (hne : text ≠ []) (hchars : ∀ c ∈ text, IsWordChar c) :
    Solid text where
  newline_notMem h := absurd (hchars _ h) (by decide)
  stops_append rest := by
    obtain ⟨c, later, rfl⟩ := List.exists_cons_of_ne_nil hne
    exact stops_cons.2 (hchars c List.mem_cons_self).1
  endsSolid := by
    obtain ⟨init, c, rfl⟩ := (List.eq_nil_or_concat text).resolve_left hne
    rw [List.concat_eq_append] at hchars ⊢
    exact ⟨init, c, rfl, (hchars c (by simp)).1⟩

theorem solid_string {body value : List Char} (hnewline : '\n' ∉ body)
    (hbody : ∀ rest, StringBody (body ++ rest) value rest) : Solid ('"' :: body) where
  newline_notMem := by simpa using hnewline
  stops_append _ := stops_cons.2 (by decide)
  endsSolid := by
    have hend : EndsSolid body := StringBody.endsSolid (by simpa using hbody [])
    exact hend.append ['"']

theorem solid_brace {c : Char} (hc : c ∈ ['{', '}']) : Solid [c] := by
  have hspace : isSpace c = false := by revert c; decide
  exact ⟨by revert c; decide, fun rest => stops_cons.2 hspace, [], c, rfl, hspace⟩

theorem Nested.solid (h : Nested tokens) : ∀ token ∈ tokens, Solid token := by
  induction h with
  | nil => simp
  | word hne hchars _ ih => exact List.forall_mem_cons.2 ⟨solid_of_isWordChar hne hchars, ih⟩
  | string hnewline hbody _ ih => exact List.forall_mem_cons.2 ⟨solid_string hnewline hbody, ih⟩
  | braces _ _ ihinner ihlater =>
    simp only [List.forall_mem_cons, List.forall_mem_append]
    exact ⟨solid_brace (by simp), ihinner, solid_brace (by simp), ihlater⟩

/-! ### Relations that hold because of tokens -/

/-- The relation holds between two texts because of tokens that are spread between them; wherever
else these tokens are spread, it holds as well, up to blanks. -/
def Tokenized (R : List Char → List Char → Prop) (text rest : List Char) : Prop :=
  ∃ tokens, Nested tokens ∧ Spread tokens text rest ∧
    ∀ {text' rest'}, Spread tokens text' rest' →
      ∃ start stop, Blank text' start ∧ R start stop ∧ Blank stop rest'

variable {R S : List Char → List Char → Prop}

theorem Tokenized.mono (h : Tokenized R text rest)
    (hmono : ∀ start stop, R start stop → S start stop) : Tokenized S text rest := by
  obtain ⟨tokens, hnested, hspread, hreplay⟩ := h
  refine ⟨tokens, hnested, hspread, fun hspread' => ?_⟩
  obtain ⟨start, stop, hstart, hR, hstop⟩ := hreplay hspread'
  exact ⟨start, stop, hstart, hmono start stop hR, hstop⟩

theorem Tokenized.trans_blank (h : Tokenized R text mid) (hblank : Blank mid rest) :
    Tokenized R text rest := by
  obtain ⟨tokens, hnested, hspread, hreplay⟩ := h
  exact ⟨tokens, hnested, hspread.trans_blank hblank, hreplay⟩

theorem tokenized_nothing (text : List Char) : Tokenized Eq text text :=
  ⟨[], .nil, .nil (.nothing text), fun {_ rest'} h => by
    cases h with
    | nil hblank => exact ⟨rest', rest', hblank, rfl, .nothing rest'⟩⟩

theorem tokenized_word {word : List Char} (hne : word ≠ []) (hchars : ∀ c ∈ word, IsWordChar c)
    (rest : List Char) :
    Tokenized (fun start stop => start = word ++ stop) (word ++ rest) rest :=
  ⟨[word], .word hne hchars .nil, .cons (.nothing _) (.nil (.nothing rest)), fun h => by
    cases h with
    | cons hblank hlater =>
      cases hlater with
      | nil hblank' => exact ⟨_, _, hblank, rfl, hblank'⟩⟩

/-- One relation after the other. -/
theorem Tokenized.seq (h : Tokenized R text mid) (hblank : Blank mid mid')
    (h' : Tokenized S mid' rest) :
    Tokenized (fun start stop => ∃ mid mid', R start mid ∧ Blank mid mid' ∧ S mid' stop)
      text rest := by
  obtain ⟨tokens, hnested, hspread, hreplay⟩ := h
  obtain ⟨tokens', hnested', hspread', hreplay'⟩ := h'
  refine ⟨tokens ++ tokens', hnested.append hnested',
    (hspread.trans_blank hblank).append hspread', fun hboth => ?_⟩
  obtain ⟨between, hfirst, hsecond⟩ := hboth.of_append
  obtain ⟨start, stop, hstart, hR, hstop⟩ := hreplay hfirst
  obtain ⟨start', stop', hstart', hS, hstop'⟩ := hreplay' hsecond
  exact ⟨start, stop', hstart, ⟨stop, start', hR, hstop.trans hstart', hS⟩, hstop'⟩

/-- A relation between braces. -/
theorem Tokenized.braces (hblank : Blank text mid) (h : Tokenized R mid ('}' :: rest)) :
    Tokenized (fun start stop => ∃ afterOpen inner beforeClose, start = '{' :: afterOpen ∧
      Blank afterOpen inner ∧ R inner beforeClose ∧ Blank beforeClose ('}' :: stop))
      ('{' :: text) rest := by
  obtain ⟨tokens, hnested, hspread, hreplay⟩ := h
  have hopen : Spread [['{']] ('{' :: text) text := .cons (.nothing _) (.nil (.nothing text))
  have hclose : Spread [['}']] ('}' :: rest) rest := .cons (.nothing _) (.nil (.nothing rest))
  refine ⟨['{'] :: (tokens ++ [['}']]), .braces hnested .nil,
    hopen.append ((Spread.of_blank hblank hspread).append hclose), fun hboth => ?_⟩
  cases hboth with
  | @cons _ _ afterOpen _ _ hstart hlater =>
    obtain ⟨between, hinner, hclose⟩ := hlater.of_append
    obtain ⟨start, stop, hblank, hR, hstop⟩ := hreplay hinner
    cases hclose with
    | @cons _ _ afterClose _ _ hclose hrest =>
      cases hrest with
      | nil hrest =>
        exact ⟨_, afterClose, hstart, ⟨afterOpen, start, stop, rfl, hblank, hR, hstop.trans hclose⟩,
          hrest⟩

end

/-! ### Words and strings -/

theorem isWordChar_of_isSymbolChar {c : Char} (h : isSymbolChar c) : IsWordChar c := by
  have hspace : isSpace c = false := IsOperandChar.not_isSpace (.inl h)
  refine ⟨hspace, fun hmem => ?_⟩
  simp only [List.mem_cons, List.not_mem_nil, or_false] at hmem
  rcases hmem with rfl | rfl | rfl | rfl <;> exact absurd h (by decide)

theorem isWordChar_of_isDigit {c : Char} (h : c.isDigit) : IsWordChar c :=
  isWordChar_of_isSymbolChar (by simp [isSymbolChar, h])

/-- The characters of a string that was read stand for its characters, so a newline would be found
among these. -/
theorem StringBody.exists_body {text value rest : List Char} (h : StringBody text value rest)
    (hvalue : '\n' ∉ value) : ∃ body, text = body ++ rest ∧ '\n' ∉ body ∧
      ∀ rest', StringBody (body ++ rest') value rest' := by
  induction h with
  | close rest => exact ⟨['"'], rfl, by decide, fun _ => .close _⟩
  | plain hquote hbackslash _ ih =>
    rw [List.mem_cons, not_or] at hvalue
    obtain ⟨body, rfl, hnewline, hbody⟩ := ih hvalue.2
    refine ⟨_ :: body, rfl, ?_, fun rest' => .plain hquote hbackslash (hbody rest')⟩
    rw [List.mem_cons, not_or]
    exact ⟨hvalue.1, hnewline⟩
  | escape he _ ih =>
    rw [List.mem_cons, not_or] at hvalue
    obtain ⟨body, rfl, hnewline, hbody⟩ := ih hvalue.2
    refine ⟨'\\' :: _ :: body, rfl, ?_, fun rest' => .escape he (hbody rest')⟩
    have hletters : ∀ entry ∈ escapes, entry.1 ≠ '\n' := by decide
    simpa [hnewline] using (hletters _ he).symm

variable {text rest : List Char}

theorem StringText.tokenized {s : String} (h : StringText text s rest) (hs : '\n' ∉ s.toList) :
    Tokenized (fun start stop => StringText start s stop) text rest := by
  obtain ⟨hbody⟩ := h
  rw [String.toList_ofList] at hs
  obtain ⟨body, rfl, hnewline, hbody⟩ := hbody.exists_body hs
  refine ⟨['"' :: body], .string hnewline hbody .nil, .cons (.nothing _) (.nil (.nothing rest)),
    fun h => ?_⟩
  cases h with
  | cons hblank hlater =>
    cases hlater with
    | nil hblank' => exact ⟨_, _, hblank, .quoted (hbody _), hblank'⟩

theorem DigitsText.tokenized {n : Nat} (h : DigitsText text n rest) (before : List Char)
    (hbefore : ∀ c ∈ before, IsWordChar c) :
    Tokenized (fun start stop => ∃ digits, start = before ++ digits ∧ DigitsText digits n stop)
      (before ++ text) rest := by
  obtain @⟨digits, hne, hdigits⟩ := h
  have hword : ∀ c ∈ before ++ digits, IsWordChar c :=
    List.forall_mem_append.2 ⟨hbefore, fun c hc => isWordChar_of_isDigit (hdigits c hc)⟩
  rw [← List.append_assoc]
  refine (tokenized_word (by simp [hne]) hword rest).mono ?_
  rintro _ stop rfl
  exact ⟨digits ++ stop, List.append_assoc _ _ _, .digits hne hdigits stop⟩

theorem IntegerText.tokenized {i : Int} (h : IntegerText text i rest) :
    Tokenized (fun start stop => IntegerText start i stop) text rest := by
  cases h with
  | nonneg hdigits =>
    refine (hdigits.tokenized [] (by simp)).mono ?_
    rintro _ stop ⟨digits, rfl, hdigits⟩
    exact .nonneg hdigits
  | neg hdigits =>
    refine (hdigits.tokenized ['-'] (by decide)).mono ?_
    rintro _ stop ⟨digits, rfl, hdigits⟩
    exact .neg hdigits

/-! ### Values -/

theorem tokenized_sign {c : Char} (hc : IsWordChar c) (rest : List Char) :
    Tokenized (fun start stop => start = c :: stop) (c :: rest) rest :=
  tokenized_word (List.cons_ne_nil c []) (List.forall_mem_singleton.2 hc) rest

theorem ParameterText.isWordChar {kind : ParameterKind} {parameter : List Char} {value : Attribute}
    (h : ParameterText kind parameter value) : ∀ c ∈ parameter, IsWordChar c := by
  cases h with
  | register hname =>
    intro c hc
    exact isWordChar_of_isSymbolChar
      (isSymbolChar_of_isAlphanum (hname.isAlphanum c (by simpa using hc)))
  | label l => exact fun c hc => isWordChar_of_isSymbolChar (isSymbolChar_of_mem l.isSymbol_name hc)

/-- A value without newlines, if it is a string. -/
def OneLine (value : Attribute) : Prop :=
  ∀ s, value = .string s → '\n' ∉ s.toList

theorem ValueText.tokenized {value : Attribute}
    (h : ValueText Registration.InDialect text value rest) (hvalue : OneLine value) :
    Tokenized (fun start stop => ValueText Registration.InDialect start value stop) text rest := by
  cases h with
  | @parameter name parameter kind _ hname hchars hknown hparameter rest =>
    have hword : ∀ c ∈ '!' :: (name ++ '<' :: (parameter ++ ['>'])), IsWordChar c := by
      have hnames : ∀ c ∈ name, IsWordChar c := by
        have hkind : String.ofList name = kind.name := hknown
        rw [← String.toList_ofList (l := name), hkind]
        cases kind <;> decide
      have hsigns : IsWordChar '!' ∧ IsWordChar '<' ∧ IsWordChar '>' := by decide
      simp only [List.forall_mem_cons, List.forall_mem_append]
      exact ⟨hsigns.1, hnames, hsigns.2.1, hparameter.isWordChar, hsigns.2.2, by simp⟩
    have htext : '!' :: (name ++ '<' :: (parameter ++ '>' :: rest)) =
        '!' :: (name ++ '<' :: (parameter ++ ['>'])) ++ rest := by simp
    rw [htext]
    refine (tokenized_word (List.cons_ne_nil _ _) hword rest).mono ?_
    rintro _ stop rfl
    simpa using ValueText.parameter hname hchars hknown hparameter stop
  | string hstring =>
    exact (hstring.tokenized (hvalue _ rfl)).mono fun _ _ => .string
  | integer hnumber hcolon htype hwidth =>
    refine ((hnumber.tokenized.seq hcolon (tokenized_sign (by decide) _)).seq htype
      (hwidth.tokenized ['i'] (by decide))).mono ?_
    rintro start stop ⟨_, _, ⟨_, _, hnumber, hcolon, rfl⟩, htype, _, rfl, hwidth⟩
    exact .integer hnumber hcolon htype hwidth

/-! ### Dictionaries -/

theorem EntryText.trans_blank {known : Registration → Prop} {mid : List Char}
    {entry : String × Attribute} (h : EntryText known text entry mid) (hblank : Blank mid rest) :
    EntryText known text entry rest := by
  cases h with
  | keyed hkey hsign hafter hvalue hrest =>
    exact .keyed hkey hsign hafter hvalue (hrest.trans hblank)

/-- Entries without newlines in their keys and values. -/
def OneLineEntries (entries : Dictionary) : Prop :=
  ∀ entry ∈ entries, '\n' ∉ entry.1.toList ∧ OneLine entry.2

theorem EntryText.tokenized {entry : String × Attribute}
    (h : EntryText Registration.InDialect text entry rest)
    (hentry : '\n' ∉ entry.1.toList ∧ OneLine entry.2) :
    Tokenized (fun start stop => EntryText Registration.InDialect start entry stop) text rest := by
  cases h with
  | keyed hkey hsign hblank hvalue hrest =>
    refine Tokenized.trans_blank (.mono (((hkey.tokenized hentry.1).seq hsign
      (tokenized_sign (by decide) _)).seq hblank (hvalue.tokenized hentry.2)) ?_) hrest
    rintro start stop ⟨_, _, ⟨_, _, hkey, hsign, rfl⟩, hblank, hvalue⟩
    exact .keyed hkey hsign hblank hvalue (.nothing stop)

/-- The closing brace after the entries belongs to the brace in front of them. -/
theorem EntriesText.tokenized {entries : Dictionary}
    (h : EntriesText Registration.InDialect text entries rest) (hentries : OneLineEntries entries) :
    Tokenized (fun start stop => ∀ rest', Blank stop ('}' :: rest') →
      EntriesText Registration.InDialect start entries rest') text ('}' :: rest) := by
  induction h with
  | last hentry =>
    refine (hentry.tokenized (hentries _ (by simp))).mono fun start stop h rest' hclose => ?_
    exact .last (h.trans_blank hclose)
  | more hentry hblank _ ih =>
    rw [OneLineEntries, List.forall_mem_cons] at hentries
    refine (((hentry.tokenized hentries.1).seq (.nothing _) (tokenized_sign (by decide) _)).seq
      hblank (ih hentries.2)).mono ?_
    rintro start stop ⟨_, _, ⟨_, _, hentry, hcomma, rfl⟩, hblank, hlater⟩ rest' hclose
    exact .more (hentry.trans_blank hcomma) hblank (hlater rest' hclose)

theorem DictionaryText.tokenized {entries : Dictionary}
    (h : DictionaryText Registration.InDialect text entries rest)
    (hentries : OneLineEntries entries) :
    Tokenized (fun start stop => DictionaryText Registration.InDialect start entries stop)
      text rest := by
  cases h with
  | empty hclose =>
    refine ((tokenized_nothing _).braces hclose).mono ?_
    rintro _ stop ⟨_, _, _, rfl, hopen, rfl, hclose⟩
    exact .empty (hopen.trans hclose)
  | entries hblank h =>
    refine ((h.tokenized hentries).braces hblank).mono ?_
    rintro _ stop ⟨_, _, _, rfl, hblank, h, hclose⟩
    exact .entries hblank (h stop hclose)

/-! ### Ops -/

/-- The values of ops do not have newlines. -/
theorem oneLineEntries_attributes (op : Op) : OneLineEntries op.attributes := by
  cases op with
  | instruction i =>
    intro entry hentry
    obtain ⟨⟨slot, operand⟩, -, rfl⟩ := Instruction.mem_attributes.1 hentry
    have hkey : '\n' ∉ slot.name.toList := by cases slot <;> decide
    refine ⟨hkey, fun s hs => ?_⟩
    rcases operand with r | i | (i | l) <;> cases hs
  | label l =>
    have hkey : '\n' ∉ "label".toList := by decide
    refine List.forall_mem_singleton.2 ⟨hkey, fun s hs => ?_⟩
    cases hs
  | directive d =>
    obtain ⟨hname, ⟨hnewline, -⟩, -⟩ := of_defect?_eq_none d.defect?_eq_none
    have hkeys : '\n' ∉ "directive".toList ∧ '\n' ∉ "value".toList := by decide
    have hsymbol : '\n' ∉ d.name.toList := fun h =>
      absurd (isSymbolChar_of_mem hname h) (by decide)
    refine List.forall_mem_cons.2 ⟨⟨hkeys.1, fun s hs => ?_⟩,
      List.forall_mem_singleton.2 ⟨hkeys.2, fun s hs => ?_⟩⟩
    · cases hs
      exact hsymbol
    · cases hs
      exact hnewline

theorem newline_notMem_of_opNamed {name : String} {kind : OpKind} (h : OpNamed name kind) :
    '\n' ∉ name.toList := by
  cases h with
  | catalog opcode =>
    have hstem : '\n' ∉ Opcode.dialectStem.toList := by decide
    rw [Opcode.name, String.toList_append, List.mem_append, not_or]
    exact ⟨hstem, fun h => absurd (isSymbolChar_of_mem (isSymbol_mnemonic opcode) h) (by decide)⟩
  | otherName hmem =>
    have haliases : ∀ entry ∈ Opcode.aliases, '\n' ∉ entry.1.toList := by decide
    exact haliases _ hmem
  | label => decide
  | directive => decide

theorem Denotes.oneLineEntries {name : String} {entries : Dictionary} {op : Op}
    (h : Denotes Registration.InDialect name entries op) : OneLineEntries entries :=
  fun entry hentry => oneLineEntries_attributes op entry (h.perm_attributes.mem_iff.1 hentry)

theorem OpText.tokenized {op : Op} (h : OpText Registration.InDialect text op rest) :
    Tokenized (fun start stop => OpText Registration.InDialect start op stop) text rest := by
  cases h with
  | bare hname hopen hclose hop =>
    refine (((hname.tokenized (newline_notMem_of_opNamed hop.known_name)).seq hopen
      (tokenized_sign (by decide) _)).seq hclose (tokenized_sign (by decide) _)).mono ?_
    rintro start stop ⟨_, _, ⟨_, _, hname, hopen, rfl⟩, hclose, rfl⟩
    exact .bare hname hopen hclose hop
  | withDictionary hname hopen hclose hblank hentries hop =>
    refine ((((hname.tokenized (newline_notMem_of_opNamed hop.known_name)).seq hopen
      (tokenized_sign (by decide) _)).seq hclose (tokenized_sign (by decide) _)).seq hblank
      (hentries.tokenized hop.oneLineEntries)).mono ?_
    rintro start stop ⟨_, _, ⟨_, _, ⟨_, _, hname, hopen, rfl⟩, hclose, rfl⟩, hblank, hentries⟩
    exact .withDictionary hname hopen hclose hblank hentries hop

/-- The closing brace after the ops belongs to the brace in front of them. -/
theorem OpsText.tokenized {p : Program} (h : OpsText Registration.InDialect text p rest) :
    Tokenized (fun start stop => ∀ rest', Blank stop ('}' :: rest') →
      ∃ opsText, Blank start opsText ∧ OpsText Registration.InDialect opsText p rest')
      text ('}' :: rest) := by
  induction h with
  | close rest =>
    refine (tokenized_nothing _).mono ?_
    rintro start _ rfl rest' hclose
    exact ⟨_, hclose, .close rest'⟩
  | op hop hblank _ ih =>
    refine (hop.tokenized.seq hblank ih).mono ?_
    rintro start stop ⟨_, _, hop, hblank, hlater⟩ rest' hclose
    obtain ⟨opsText, hbefore, hops⟩ := hlater rest' hclose
    exact ⟨start, .nothing start, .op hop (hblank.trans hbefore) hops⟩

/-! ### Programs -/

/-- The tokens of a program: the word for a module, and ops in braces. -/
def moduleTokens (inner : List (List Char)) : List (List Char) :=
  "module".toList :: ['{'] :: (inner ++ [['}']])

theorem nested_moduleTokens {inner : List (List Char)} (h : Nested inner) :
    Nested (moduleTokens inner) :=
  .word (by decide) (by decide) (.braces h .nil)

/-- A text of a program has tokens, and every text with the same tokens is one of the program. -/
theorem exists_tokens_of_programText {p : Program}
    (h : ProgramText Registration.InDialect text p) :
    ∃ inner, Nested inner ∧ Spread (moduleTokens inner) text [] ∧
      ∀ {text'}, Spread (moduleTokens inner) text' [] →
        ProgramText Registration.InDialect text' p := by
  obtain ⟨hword, hopen, hblank, hops, hend⟩ := h
  obtain ⟨inner, hnested, hspread, hreplay⟩ := hops.tokenized
  have hclose : Spread [['}']] ('}' :: _) [] := .cons (.nothing _) (.nil hend)
  have hmodule := (Spread.of_blank hblank hspread).append hclose
  refine ⟨inner, hnested, .cons hword (.cons hopen hmodule), fun h => ?_⟩
  cases h with
  | cons hword h =>
    cases h with
    | cons hopen h =>
      obtain ⟨between, hinner, hclose⟩ := h.of_append
      obtain ⟨start, stop, hstart, hops, hstop⟩ := hreplay hinner
      cases hclose with
      | cons hclose hend =>
        cases hend with
        | nil hend =>
          obtain ⟨opsText, hbefore, hops⟩ := hops _ (hstop.trans hclose)
          exact .module hword hopen (hstart.trans hbefore) hops hend

end RiscvDialect.Generic.Grammar

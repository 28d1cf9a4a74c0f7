import RiscvDialect.Generic.Quoted
import RiscvDialect.Registry

/-!
# Reading the generic format

Blanks and comments may stand between any two tokens. Which names of ops and attributes are known
is the business of a registry; an op is built from its dictionary as soon as it has been read.

## Main definitions

* `skipBlank`: skip white space and comments
* `readAttribute`, `readOp`, `readProgram`: the readers of the format
* `parseAttribute`, `parseOp`, `parseProgram`: read a whole text, with blanks around

## Main statements

* `leaves_of_readEntry`, `leaves_of_readOp`: each round of a list reads some characters, which is
  why reading a list ends
-/

namespace RiscvDialect.Generic

variable {κ : Type} [ParameterReader κ]

/-! ### Blanks -/

/-- Skip blanks, where `comment` says whether the text starts inside a comment. A comment starts
with two slashes and ends before the next newline. -/
def skipBlankFrom (comment : Bool) : List Char → List Char
  | [] => []
  | c :: rest =>
    if comment then skipBlankFrom (c != '\n') rest
    else if Text.isBlankChar c then skipBlankFrom false rest
    else if c = '/' ∧ rest.head? = some '/' then skipBlankFrom true rest
    else c :: rest

/-- Skip white space and comments. -/
def skipBlank (text : List Char) : List Char :=
  skipBlankFrom false text

theorem skipBlankFrom_suffix (comment : Bool) (text : List Char) :
    skipBlankFrom comment text <:+ text := by
  fun_induction skipBlankFrom comment text with
  | case1 => exact List.suffix_refl _
  | case2 c rest ih => exact ih.trans (List.suffix_cons _ _)
  | case3 _ c rest _ _ ih => exact ih.trans (List.suffix_cons _ _)
  | case4 _ c rest _ _ _ ih => exact ih.trans (List.suffix_cons _ _)
  | case5 => exact List.suffix_refl _

theorem skipBlank_suffix (text : List Char) : skipBlank text <:+ text :=
  skipBlankFrom_suffix false text

/-! ### Values -/

/-- The characters of the name of an attribute. -/
def isAttributeNameChar (c : Char) : Bool :=
  c.isAlphanum || c == '_' || c == '.'

/-- Read the type of an integer, which is the letter `i` and the width. -/
def readWidth (text : List Char) : Except Fault (Nat × List Char) :=
  match text with
  | 'i' :: digits =>
    match Numeral.readDecimalNat digits with
    | some (width, rest) =>
      if width < 0x100000000 then .ok (width, rest) else .error ⟨text, .integerRange⟩
    | none => Fault.expected "integer type" text
  | _ => Fault.expected "integer type" text

/-- Read an integer with its type. -/
def readSizedInt (text : List Char) : Except Fault (SizedInt × List Char) :=
  match Numeral.readDecimal text with
  | none => Fault.expected "attribute value" text
  | some (number, rest) =>
    match Numeral.int64? number with
    | none => .error ⟨text, .integerRange⟩
    | some value => do
      let rest ← expectChar ':' (skipBlank rest)
      let typeText := skipBlank rest
      let (width, rest) ← readWidth typeText
      let i ← Fault.ofRefusal typeText (SizedInt.ofWidth value width)
      return (i, rest)

/-- Read an attribute with a parameter. The `text` starts with the exclamation mark and goes on with
`body`. -/
def readParameter (registry : Registry κ) (text body : List Char) :
    Except Fault (Attribute × List Char) :=
  match body.takeWhile isAttributeNameChar with
  | [] => Fault.expected "attribute name" body
  | name =>
    match registry.attribute? (String.ofList name) with
    | none => .error ⟨text, .refused (.unknownAttribute (String.ofList name))⟩
    | some kind => do
      let parameter ← expectChar '<' (body.dropWhile isAttributeNameChar)
      let (value, rest) ← Fault.ofRefusal parameter (ParameterReader.read kind parameter)
      let rest ← expectChar '>' rest
      return (value, rest)

/-- Read a value. -/
def readAttribute (registry : Registry κ) (text : List Char) :
    Except Fault (Attribute × List Char) :=
  match text with
  | '!' :: body => readParameter registry text body
  | '"' :: _ => (readQuoted "attribute value" text).map fun (s, rest) => (.string s, rest)
  | _ => (readSizedInt text).map fun (i, rest) => (.integer i, rest)

/-! ### Dictionaries -/

/-- Read a value with its key, and the blanks after it. -/
def readEntry (registry : Registry κ) (text : List Char) :
    Except Fault ((String × Attribute) × List Char) := do
  let (key, rest) ← readQuoted "attribute name" text
  let rest ← expectChar '=' (skipBlank rest)
  let (value, rest) ← readAttribute registry (skipBlank rest)
  return ((key, value), skipBlank rest)

theorem leaves_of_expectChar_skipBlank {c : Char} {text rest : List Char}
    (h : expectChar c (skipBlank text) = .ok rest) : Leaves text rest :=
  .of_suffix_trans (skipBlank_suffix text) (leaves_of_expectChar h)

theorem suffix_of_readWidth {text rest : List Char} {width : Nat}
    (h : readWidth text = .ok (width, rest)) : rest <:+ text := by
  unfold readWidth at h
  split at h
  · split at h
    · next hd =>
      split at h
      · cases h
        exact (Numeral.suffix_of_readDecimalNat hd).trans (List.suffix_cons _ _)
      · simp at h
    · simp [Fault.expected] at h
  · simp [Fault.expected] at h

theorem leaves_of_readSizedInt {text rest : List Char} {i : SizedInt}
    (h : readSizedInt text = .ok (i, rest)) : Leaves text rest := by
  rw [readSizedInt] at h
  split at h
  · simp [Fault.expected] at h
  · next number afterNumber hn =>
    split at h
    · simp at h
    · obtain ⟨afterColon, hc, h⟩ := Except.bind_eq_ok.1 h
      obtain ⟨⟨width, afterWidth⟩, hw, h⟩ := Except.bind_eq_ok.1 h
      obtain ⟨j, -, h⟩ := Except.bind_eq_ok.1 h
      cases h
      exact .of_suffix_trans (Numeral.suffix_of_readDecimal hn)
        ((leaves_of_expectChar_skipBlank hc).trans_suffix
          ((suffix_of_readWidth hw).trans (skipBlank_suffix _)))

theorem suffix_of_readParameter {registry : Registry κ} {text body rest : List Char}
    {value : Attribute} (h : readParameter registry text body = .ok (value, rest)) :
    rest <:+ body := by
  rw [readParameter] at h
  split at h
  · simp [Fault.expected] at h
  · split at h
    · simp at h
    · obtain ⟨parameter, hl, h⟩ := Except.bind_eq_ok.1 h
      obtain ⟨⟨v, afterParameter⟩, hp, h⟩ := Except.bind_eq_ok.1 h
      obtain ⟨afterBracket, hr, h⟩ := Except.bind_eq_ok.1 h
      cases h
      exact (leaves_of_expectChar hr).suffix.trans
        ((ParameterReader.suffix_of_read (Fault.of_ofRefusal_eq_ok hp)).trans
          ((leaves_of_expectChar hl).suffix.trans (List.dropWhile_suffix _)))

theorem leaves_of_readAttribute {registry : Registry κ} {text rest : List Char} {value : Attribute}
    (h : readAttribute registry text = .ok (value, rest)) : Leaves text rest := by
  unfold readAttribute at h
  split at h
  · exact .of_suffix (suffix_of_readParameter h)
  · obtain ⟨⟨s, r⟩, hr, hp⟩ := Except.map_eq_ok.1 h
    cases hp
    exact leaves_of_readQuoted hr
  · obtain ⟨⟨i, r⟩, hr, hp⟩ := Except.map_eq_ok.1 h
    cases hp
    exact leaves_of_readSizedInt hr

theorem leaves_of_readEntry {registry : Registry κ} {text rest : List Char}
    {entry : String × Attribute} (h : readEntry registry text = .ok (entry, rest)) :
    Leaves text rest := by
  rw [readEntry] at h
  obtain ⟨⟨key, afterKey⟩, hk, h⟩ := Except.bind_eq_ok.1 h
  obtain ⟨afterSign, hs, h⟩ := Except.bind_eq_ok.1 h
  obtain ⟨⟨value, afterValue⟩, hv, h⟩ := Except.bind_eq_ok.1 h
  cases h
  exact (leaves_of_readQuoted hk).trans ((leaves_of_expectChar_skipBlank hs).trans
    (.of_suffix_trans (skipBlank_suffix _)
      ((leaves_of_readAttribute hv).trans_suffix (skipBlank_suffix _))))

/-- Read entries separated by commas, at least one, and the closing brace. -/
def readEntries (registry : Registry κ) (text : List Char) :
    Except Fault (Dictionary × List Char) :=
  match _h : readEntry registry text with
  | .error fault => .error fault
  | .ok (entry, ',' :: rest) =>
    (readEntries registry (skipBlank rest)).map fun (entries, rest) => (entry :: entries, rest)
  | .ok (entry, '}' :: rest) => .ok ([entry], rest)
  | .ok (_, rest) => Fault.expected "',' or '\x7d'" rest
termination_by text.length
decreasing_by
  exact ((leaves_of_readEntry _h).trans_suffix
    ((skipBlank_suffix _).trans (List.suffix_cons _ _))).length_lt

/-- Read a dictionary, if there is one. -/
def readDictionary (registry : Registry κ) : List Char → Except Fault (Dictionary × List Char)
  | '{' :: rest =>
    match skipBlank rest with
    | '}' :: rest => .ok ([], rest)
    | rest => readEntries registry rest
  | text => .ok ([], text)

/-! ### Ops and programs -/

/-- Read an op. Its name must be known, and what is wrong with its values is reported where the op
starts. -/
def readOp (registry : Registry κ) (text : List Char) : Except Fault (Op × List Char) := do
  let (name, rest) ← readQuoted "op name" text
  let kind ← Fault.ofRefusal text
    (match registry.op? name with
    | some kind => .ok kind
    | none => .error (.unknownOp name))
  let rest ← expectChar '(' (skipBlank rest)
  let rest ← expectChar ')' (skipBlank rest)
  let (entries, rest) ← readDictionary registry (skipBlank rest)
  let op ← Fault.ofRefusal text (kind.build entries)
  return (op, rest)

theorem suffix_of_readEntries {registry : Registry κ} {text rest : List Char} {entries : Dictionary}
    (h : readEntries registry text = .ok (entries, rest)) : rest <:+ text := by
  fun_induction readEntries registry text generalizing entries rest with
  | case1 => simp at h
  | case2 text entry tail he ih =>
    obtain ⟨⟨later, r⟩, hr, hp⟩ := Except.map_eq_ok.1 h
    cases hp
    exact (ih hr).trans ((skipBlank_suffix _).trans
      ((List.suffix_cons _ _).trans (leaves_of_readEntry he).suffix))
  | case3 text entry tail he =>
    cases h
    exact (List.suffix_cons _ _).trans (leaves_of_readEntry he).suffix
  | case4 => simp [Fault.expected] at h

theorem suffix_of_readDictionary {registry : Registry κ} {text rest : List Char}
    {entries : Dictionary} (h : readDictionary registry text = .ok (entries, rest)) :
    rest <:+ text := by
  unfold readDictionary at h
  split at h
  · next body =>
    have hb : skipBlank body <:+ '{' :: body :=
      (skipBlank_suffix body).trans (List.suffix_cons _ _)
    split at h
    · next he =>
      cases h
      exact (List.suffix_cons _ _).trans (he ▸ hb)
    · exact (suffix_of_readEntries h).trans hb
  · cases h
    exact List.suffix_refl _

theorem leaves_of_readOp {registry : Registry κ} {text rest : List Char} {op : Op}
    (h : readOp registry text = .ok (op, rest)) : Leaves text rest := by
  rw [readOp] at h
  obtain ⟨⟨name, afterName⟩, hn, h⟩ := Except.bind_eq_ok.1 h
  obtain ⟨kind, -, h⟩ := Except.bind_eq_ok.1 h
  obtain ⟨afterOpen, ho, h⟩ := Except.bind_eq_ok.1 h
  obtain ⟨afterClose, hc, h⟩ := Except.bind_eq_ok.1 h
  obtain ⟨⟨entries, afterEntries⟩, he, h⟩ := Except.bind_eq_ok.1 h
  obtain ⟨built, -, h⟩ := Except.bind_eq_ok.1 h
  cases h
  exact (leaves_of_readQuoted hn).trans_suffix ((suffix_of_readDictionary he).trans
    ((skipBlank_suffix _).trans ((leaves_of_expectChar_skipBlank hc).suffix.trans
      (leaves_of_expectChar_skipBlank ho).suffix)))

/-- Read ops and the closing brace. -/
def readOps (registry : Registry κ) (text : List Char) : Except Fault (Program × List Char) :=
  match text with
  | [] => Fault.expected "'\x7d'" []
  | '}' :: rest => .ok ([], rest)
  | text =>
    match _h : readOp registry text with
    | .error fault => .error fault
    | .ok (op, rest) =>
      (readOps registry (skipBlank rest)).map fun (ops, rest) => (op :: ops, rest)
termination_by text.length
decreasing_by
  exact ((leaves_of_readOp _h).trans_suffix (skipBlank_suffix _)).length_lt

/-- Read a program: the word `module` and ops in braces. -/
def readProgram (registry : Registry κ) (text : List Char) : Except Fault (Program × List Char) :=
  match "module".toList.isPrefixOf? text with
  | none => Fault.expected "'module'" text
  | some rest => do
    let rest ← expectChar '{' (skipBlank rest)
    readOps registry (skipBlank rest)

/-! ### Whole texts -/

/-- Read a whole text with a reader, with blanks before and after. -/
def parseWhole {α : Type} (read : List Char → Except Fault (α × List Char)) (text : String) :
    Except ParseError α :=
  let whole := text.toList
  let result : Except Fault α := do
    let (value, rest) ← read (skipBlank whole)
    match skipBlank rest with
    | [] => return value
    | rest => Fault.expected "end of input" rest
  result.mapError (Fault.report .start whole)

/-- The value that a text writes. -/
def parseAttribute (registry : Registry κ) : String → Except ParseError Attribute :=
  parseWhole (readAttribute registry)

/-- The op that a text writes. -/
def parseOp (registry : Registry κ) : String → Except ParseError Op :=
  parseWhole (readOp registry)

/-- The program that a text writes. -/
def parseProgram (registry : Registry κ) : String → Except ParseError Program :=
  parseWhole (readProgram registry)

end RiscvDialect.Generic

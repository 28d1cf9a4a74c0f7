import RiscvDialect.Generic.Parser
import RiscvDialect.Proofs.Dictionary
import RiscvDialect.Proofs.Register

/-!
# The grammar of the generic format

What the generic format is, without a reader: relations between a text, what its start means, and
what is left after it. Nothing here is greedy. Blanks may be skipped or left, and a numeral may end
before another digit, as long as something can be made of the whole text.

The grammar depends on the names that are known. They are given as a set of entries that a registry
may hold; for the dialect it is `Registration.InDialect`.

## Main definitions

* `Blank`: blanks and comments, which may stand between any two tokens
* `StringText`, `DigitsText`, `IntegerText`: the tokens with a meaning
* `ValueText`, `EntryText`, `DictionaryText`: values, and values by key
* `OpText`, `ProgramText`: ops, and whole programs
-/

namespace RiscvDialect.Generic.Grammar

/-! ### Tokens -/

/-- Blanks and comments lead from one text to another. A comment starts with two slashes and runs to
the next newline, or to the end if there is none. -/
inductive Blank : List Char → List Char → Prop where
  | nothing (text : List Char) : Blank text text
  | space {c : Char} {text rest : List Char} (hc : Text.isBlankChar c) (h : Blank text rest) :
    Blank (c :: text) rest
  | comment {body text rest : List Char} (hbody : '\n' ∉ body) (hend : ∀ c ∈ text.head?, c = '\n')
    (h : Blank text rest) : Blank ('/' :: '/' :: (body ++ text)) rest

/-- The four escapes: what is written after the backslash, and what it stands for. -/
def escapes : List (Char × Char) := [('"', '"'), ('\\', '\\'), ('n', '\n'), ('t', '\t')]

/-- The rest of a string after its opening quote. Every character stands for itself, except for
quotes and backslashes. -/
inductive StringBody : List Char → List Char → List Char → Prop where
  | close (rest : List Char) : StringBody ('"' :: rest) [] rest
  | plain {c : Char} {text value rest : List Char} (hquote : c ≠ '"') (hbackslash : c ≠ '\\')
    (h : StringBody text value rest) : StringBody (c :: text) (c :: value) rest
  | escape {e c : Char} {text value rest : List Char} (he : (e, c) ∈ escapes)
    (h : StringBody text value rest) : StringBody ('\\' :: e :: text) (c :: value) rest

/-- A string in quotes. -/
inductive StringText : List Char → String → List Char → Prop where
  | quoted {text value rest : List Char} (h : StringBody text value rest) :
    StringText ('"' :: text) (String.ofList value) rest

/-- Decimal digits, at least one, with any number of leading zeros. -/
inductive DigitsText : List Char → Nat → List Char → Prop where
  | digits {digits : List Char} (hne : digits ≠ []) (hdigits : ∀ c ∈ digits, c.isDigit)
    (rest : List Char) : DigitsText (digits ++ rest) (Numeral.ofDecimalDigits digits) rest

/-- Decimal digits, after a minus sign or not. -/
inductive IntegerText : List Char → Int → List Char → Prop where
  | nonneg {text rest : List Char} {n : Nat} (h : DigitsText text n rest) : IntegerText text n rest
  | neg {text rest : List Char} {n : Nat} (h : DigitsText text n rest) :
    IntegerText ('-' :: text) (-n) rest

/-! ### Values -/

section

variable (known : Registration → Prop)

/-- What stands between the angle brackets of an attribute: a name of a register, or the symbol of a
label. -/
inductive ParameterText : ParameterKind → List Char → Attribute → Prop where
  | register {name : List Char} {r : Register} (h : Register.Named (String.ofList name) r) :
    ParameterText .register name (.register r)
  | label (l : Label) : ParameterText .label l.name.toList (.label l)

/-- A value. An attribute with a parameter is written without blanks. The value of an integer has
64 bits, and its width is between 1 and 64. -/
inductive ValueText : List Char → Attribute → List Char → Prop where
  | parameter {name parameter : List Char} {kind : ParameterKind} {value : Attribute}
    (hname : name ≠ []) (hchars : ∀ c ∈ name, isAttributeNameChar c)
    (hknown : known (.attr (String.ofList name) kind))
    (hvalue : ParameterText kind parameter value) (rest : List Char) :
    ValueText ('!' :: (name ++ '<' :: (parameter ++ '>' :: rest))) value rest
  | string {text rest : List Char} {s : String} (h : StringText text s rest) :
    ValueText text (.string s) rest
  | integer {text afterValue afterColon afterBlank rest : List Char} {i : SizedInt}
    (hvalue : IntegerText text i.value.toInt afterValue)
    (hcolon : Blank afterValue (':' :: afterColon))
    (htype : Blank afterColon ('i' :: afterBlank)) (hwidth : DigitsText afterBlank i.width rest) :
    ValueText text (.integer i) rest

/-- A value with its key, and blanks after it. -/
inductive EntryText : List Char → String × Attribute → List Char → Prop where
  | keyed {text afterKey afterSign valueText afterValue rest : List Char} {key : String}
    {value : Attribute} (hkey : StringText text key afterKey)
    (hsign : Blank afterKey ('=' :: afterSign)) (hblank : Blank afterSign valueText)
    (hvalue : ValueText known valueText value afterValue) (hrest : Blank afterValue rest) :
    EntryText text (key, value) rest

/-- Entries with a comma between any two, and the closing brace. No comma comes after the last. -/
inductive EntriesText : List Char → Dictionary → List Char → Prop where
  | last {text rest : List Char} {entry : String × Attribute}
    (h : EntryText known text entry ('}' :: rest)) : EntriesText text [entry] rest
  | more {text afterComma laterText rest : List Char} {entry : String × Attribute}
    {later : Dictionary} (hentry : EntryText known text entry (',' :: afterComma))
    (hblank : Blank afterComma laterText) (hlater : EntriesText laterText later rest) :
    EntriesText text (entry :: later) rest

/-- Entries in braces, or braces with nothing between them. -/
inductive DictionaryText : List Char → Dictionary → List Char → Prop where
  | empty {text rest : List Char} (h : Blank text ('}' :: rest)) :
    DictionaryText ('{' :: text) [] rest
  | entries {text entriesText rest : List Char} {entries : Dictionary}
    (hblank : Blank text entriesText) (h : EntriesText known entriesText entries rest) :
    DictionaryText ('{' :: text) entries rest

/-! ### Ops and programs -/

/-- The name and the dictionary mean the op: the name is known for ops of its kind, and the
dictionary holds the values of the op, each under its key, in any order. -/
structure Denotes (name : String) (entries : Dictionary) (op : Op) : Prop where
  known_name : known (.op name op.kind)
  perm_attributes : entries.Perm op.attributes

/-- An op: its name, parentheses, and a dictionary, which may be left out if it is empty. -/
inductive OpText : List Char → Op → List Char → Prop where
  | bare {text afterName afterOpen rest : List Char} {name : String} {op : Op}
    (hname : StringText text name afterName) (hopen : Blank afterName ('(' :: afterOpen))
    (hclose : Blank afterOpen (')' :: rest)) (hop : Denotes known name [] op) : OpText text op rest
  | withDictionary {text afterName afterOpen afterClose dictionaryText rest : List Char}
    {name : String} {entries : Dictionary} {op : Op} (hname : StringText text name afterName)
    (hopen : Blank afterName ('(' :: afterOpen)) (hclose : Blank afterOpen (')' :: afterClose))
    (hblank : Blank afterClose dictionaryText)
    (hentries : DictionaryText known dictionaryText entries rest)
    (hop : Denotes known name entries op) : OpText text op rest

/-- Ops with blanks after each of them, and the closing brace. -/
inductive OpsText : List Char → Program → List Char → Prop where
  | close (rest : List Char) : OpsText ('}' :: rest) [] rest
  | op {text afterOp laterText rest : List Char} {op : Op} {later : Program}
    (hop : OpText known text op afterOp) (hblank : Blank afterOp laterText)
    (hlater : OpsText laterText later rest) : OpsText text (op :: later) rest

/-- A whole text that is a program: the word `module` and ops in braces, with blanks around. -/
inductive ProgramText : List Char → Program → Prop where
  | module {text afterWord afterOpen opsText afterClose : List Char} {p : Program}
    (hword : Blank text ("module".toList ++ afterWord)) (hopen : Blank afterWord ('{' :: afterOpen))
    (hblank : Blank afterOpen opsText) (hops : OpsText known opsText p afterClose)
    (hend : Blank afterClose []) : ProgramText text p

end

end RiscvDialect.Generic.Grammar

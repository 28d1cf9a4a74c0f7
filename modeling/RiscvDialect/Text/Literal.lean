import RiscvDialect.Text.Printable

/-!
# Literals

A text in quotes in which every character can be seen: what is not printable is written with a
backslash. This is how names are shown to people. The generic format has an escape for fewer
characters and leaves all others as they are.

## Main definitions

* `literalChar`: a character as it is shown
* `literal`: a text as it is shown
-/

namespace RiscvDialect.Text

/-- A character by the number of its code point, in hexadecimal digits. -/
def numberedChar (c : Char) : String :=
  "\\u\x7b" ++ String.ofList (Nat.toDigits 16 c.toNat) ++ "\x7d"

/-- A character as it is shown between quotes. -/
def literalChar (c : Char) : String :=
  match c with
  | '"' => "\\\""
  | '\\' => "\\\\"
  | '\n' => "\\n"
  | '\r' => "\\r"
  | '\t' => "\\t"
  | '\x00' => "\\0"
  | c => if isPrintable c then String.singleton c else numberedChar c

/-- A text as it is shown, in quotes. -/
def literal (text : String) : String :=
  "\"" ++ String.join (text.toList.map literalChar) ++ "\""

end RiscvDialect.Text

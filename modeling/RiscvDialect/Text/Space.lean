/-!
# White space

The characters of the Unicode property `White_Space`, and the removal of such characters at the
two ends of a text.

## Main definitions

* `isSpace`: the `White_Space` characters
* `trimStart`, `trimEnd`, `trim`: a text without the white space at its start, its end, or both

The two formats also have narrower notions of their own: `isInlineSpace` separates the parts of an
assembly statement, `isBlankChar` the tokens of the generic format.
-/

namespace RiscvDialect.Text

/-- The characters with the Unicode property `White_Space`. -/
def isSpace (c : Char) : Bool :=
  let n := c.toNat
  (0x09 ≤ n && n ≤ 0x0D) || n == 0x20 || n == 0x85 || n == 0xA0 || n == 0x1680 ||
    (0x2000 ≤ n && n ≤ 0x200A) || n == 0x2028 || n == 0x2029 || n == 0x202F || n == 0x205F ||
    n == 0x3000

/-- Space and tab: what may stand inside an assembly statement, which never leaves its line. -/
def isInlineSpace (c : Char) : Bool :=
  c == ' ' || c == '\t'

/-- Space, tab, carriage return and newline: what separates the tokens of the generic format. -/
def isBlankChar (c : Char) : Bool :=
  isInlineSpace c || c == '\r' || c == '\n'

theorem isInlineSpace_iff {c : Char} : isInlineSpace c ↔ c = ' ' ∨ c = '\t' := by
  simp [isInlineSpace]

theorem isBlankChar_iff {c : Char} :
    isBlankChar c ↔ c = ' ' ∨ c = '\t' ∨ c = '\r' ∨ c = '\n' := by
  simp [isBlankChar, isInlineSpace_iff, or_assoc]

/-- A text without the white space at its start. -/
def trimStart (text : List Char) : List Char :=
  text.dropWhile isSpace

/-- A text without the white space at its end. -/
def trimEnd (text : List Char) : List Char :=
  (text.reverse.dropWhile isSpace).reverse

/-- A text without the white space at its two ends. -/
def trim (text : List Char) : List Char :=
  trimEnd (trimStart text)

end RiscvDialect.Text

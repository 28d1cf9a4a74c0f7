/-!
# Lines

A text is cut into lines without losing anything: each `Line` keeps its content and the characters
that ended it, so that positions in a line can be turned into positions in the text.

## Main definitions

* `Line`: the content of a line and its ending
* `lines`: the lines of a text
* `lineContents`: their contents only

## Main statements

* `flatMap_text_lines`: the lines, put side by side, are the text
-/

namespace RiscvDialect.Text

/-- One line of a text. The ending is a newline, a carriage return and a newline, or nothing at
the end of the text. -/
structure Line where
  /-- The characters of the line. -/
  content : List Char
  /-- The characters that ended it. -/
  ending : List Char
  deriving DecidableEq, Repr

/-- The line with its ending. -/
def Line.text (line : Line) : List Char :=
  line.content ++ line.ending

/-- The lines of a text. A newline ends a line, together with one carriage return right before it;
a carriage return elsewhere is part of the content. A text that ends with a newline has no further
empty line. -/
def lines : List Char → List Line
  | [] => []
  | '\r' :: '\n' :: rest => ⟨[], ['\r', '\n']⟩ :: lines rest
  | '\n' :: rest => ⟨[], ['\n']⟩ :: lines rest
  | c :: rest =>
    match lines rest with
    | [] => [⟨[c], []⟩]
    | line :: later => { line with content := c :: line.content } :: later

/-- The contents of the lines of a text. -/
def lineContents (text : List Char) : List (List Char) :=
  (lines text).map Line.content

/-- The text is its lines put side by side. -/
@[simp] theorem flatMap_text_lines (text : List Char) : (lines text).flatMap Line.text = text := by
  fun_induction lines text with
  | case1 => rfl
  | case2 rest ih => simp [Line.text, ih]
  | case3 rest ih => simp [Line.text, ih]
  | case4 c rest _ _ hl ih => simpa [hl, Line.text] using ih
  | case5 c rest _ _ line later hl ih => simpa [hl, Line.text] using ih

end RiscvDialect.Text

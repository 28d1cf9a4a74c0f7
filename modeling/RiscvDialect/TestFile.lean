import RiscvDialect.Text.Line
import RiscvDialect.Text.Quotation
import RiscvDialect.Text.Space

/-!
# Test files

A test file holds programs in the generic format, each followed by what is expected of it in lines
that start with a semicolon. A line near the top says what kind of test they are for.

## Main definitions

* `TestCase`: a program with what is expected of it
* `TestFile.cases`: the cases of a file
* `normalizeProgramText`: the lines of a program text, for comparisons

## Main statements

* `TestFile.length_takeProgram_le`: a program takes at least the line on which it starts, which is
  why reading a file ends
-/

namespace RiscvDialect

/-- The lines of a text that are not empty, without the white space around them. -/
def normalizeProgramText (text : String) : List String :=
  ((Text.lineContents text.toList).map Text.trim).filter (!·.isEmpty) |>.map String.ofList

/-- A program with what is expected of it. -/
structure TestCase where
  /-- The kind of test. -/
  command : String
  /-- The text of the program. -/
  program : String
  /-- What is expected, without the semicolons. -/
  expected : String
  deriving DecidableEq, Repr

namespace TestFile

/-- Whether a line starts with a word, apart from white space. -/
def startsWith (word : String) (line : List Char) : Bool :=
  word.toList.isPrefixOf (Text.trim line)

/-- The number of braces that a line opens and leaves open, or minus the number that it closes
beyond its own. Braces in quotes do not count. A counter of 32 bits is enough for a file of fewer
than `2 ^ 31` characters. -/
def braceBalance (line : List Char) : Int :=
  let code := Text.unquoted line
  (code.count '{' : Int) - (code.count '}' : Int)

/-- Cut the lines of a program off some lines, where `depth` braces are open before them. The
program ends with the first line that has a closing brace and after which no brace is open, or with
the last line. -/
def takeProgram (depth : Int) : List (List Char) → List (List Char) × List (List Char)
  | [] => ([], [])
  | line :: rest =>
    let after := depth + braceBalance line
    if after ≤ 0 ∧ '}' ∈ line then ([line], rest)
    else
      let (program, later) := takeProgram after rest
      (line :: program, later)

theorem length_takeProgram_le (depth : Int) (lines : List (List Char)) :
    (takeProgram depth lines).2.length ≤ lines.length - 1 := by
  fun_induction takeProgram depth lines with
  | case1 => simp
  | case2 => simp
  | case3 _ line rest after _ program later he ih =>
    simp only [he] at ih
    simp only [List.length_cons]
    omega

/-- Whether a line is a line of expectations. -/
def isExpectation (line : List Char) : Bool :=
  startsWith ";" line

/-- The text of a line of expectations: the semicolon is dropped, and one space after it. -/
def expectationText (line : List Char) : List Char :=
  match Text.trim line with
  | ';' :: ' ' :: text => text
  | ';' :: text => text
  | text => text

/-- Cut a run of lines of expectations off some lines. Blank lines may stand before it. -/
def takeExpected (lines : List (List Char)) : List (List Char) × List (List Char) :=
  let lines := lines.dropWhile fun line => (Text.trim line).isEmpty
  ((lines.takeWhile isExpectation).map expectationText, lines.dropWhile isExpectation)

theorem length_takeExpected_le (lines : List (List Char)) :
    (takeExpected lines).2.length ≤ lines.length :=
  ((List.dropWhile_suffix _).trans (List.dropWhile_suffix _)).length_le

/-- Some lines as one text, with newlines between them. -/
def joinLines (lines : List (List Char)) : String :=
  "\n".intercalate (lines.map String.ofList)

/-- The cases in the lines after the header. -/
def casesFrom (command : String) : List (List Char) → List TestCase
  | [] => []
  | line :: rest =>
    if startsWith "module" line then
      let cut := takeProgram 0 (line :: rest)
      let expected := takeExpected cut.2
      ⟨command, joinLines cut.1, joinLines expected.1⟩ :: casesFrom command expected.2
    else casesFrom command rest
termination_by lines => lines.length
decreasing_by
  · have h₁ := length_takeProgram_le 0 (line :: rest)
    have h₂ := length_takeExpected_le (takeProgram 0 (line :: rest)).2
    simp only [List.length_cons] at h₁ ⊢
    omega
  · simp

/-- The cases of a test file. A file without a header has none. -/
def cases (content : String) : List TestCase :=
  match (Text.lineContents content.toList).dropWhile fun line => !startsWith "test " line with
  | [] => []
  | header :: rest => casesFrom (String.ofList (Text.trim header)) rest

end TestFile

end RiscvDialect

import RiscvDialect.Assembly.Parser
import RiscvDialect.Assembly.Printer
import RiscvDialect.Generic.Parser
import RiscvDialect.Generic.Printer
import RiscvDialect.LabelCheck
import RiscvDialect.Listing.Check
import RiscvDialect.TestFile
import RiscvDialect.Text.Search

/-!
# Running test files

There are three kinds of tests. A `cat` test expects a program to be printed as given and to read
back; an `asm` test matches the assembly of a program with directives and reads it back; a
`verifier` test expects the problems with labels that the program text announces in comments.

## Main definitions

* `TestKind`, `TestFailure`: the kinds of tests, and how a test can fail
* `TestCase.runCat`, `TestCase.runAsm`, `TestCase.runVerifier`: run one case
* `TestKind.run`: run a file
-/

namespace RiscvDialect

/-- The kinds of tests. Tests of assembly bring the engine for their directives. -/
inductive TestKind where
  | cat
  | asm (engine : CheckEngine)
  | verifier

/-- How a test can fail. -/
inductive TestFailure where
  /-- The file has no cases. -/
  | noCases
  /-- The file is for tests of another kind. -/
  | otherCommand (command : String)
  /-- The program cannot be read. -/
  | unreadable (error : ParseError) (program : String)
  /-- The program is not printed as expected. -/
  | printedOtherwise (expected actual program : String)
  /-- What was printed cannot be read. -/
  | printedUnreadable (error : ParseError) (printed : String)
  /-- What was printed reads as another program. -/
  | printedDiffers (printed : String)
  /-- The assembly does not pass the checks. -/
  | checks (failure : MatchFailure) (assembly : String)
  /-- The assembly passes the checks only with the usual indentation. -/
  | checksOnIndent (failure : MatchFailure) (assembly : String)
  /-- The assembly cannot be read. -/
  | assemblyUnreadable (error : ParseError) (assembly : String)
  /-- The assembly reads as another program. -/
  | assemblyDiffers (assembly : String)
  /-- There are problems where none was expected. -/
  | problems (actual : List LabelProblem) (program : String)
  /-- There is no problem where some were expected. -/
  | noProblems (program : String)
  /-- There are more or fewer problems than expected. -/
  | problemCount (expected : Nat) (actual : List LabelProblem) (program : String)
  /-- No problem has the expected text. -/
  | problemMissing (expected : String) (actual : List LabelProblem) (program : String)
  deriving DecidableEq, Repr

namespace TestFailure

/-- Some problems, one on each line. -/
def listProblems (problems : List LabelProblem) : String :=
  "\n".intercalate (problems.map fun problem => "  - " ++ problem.display)

/-- The failure in words. -/
def message : TestFailure → String
  | .noCases => "No test cases found in test file"
  | .otherCommand command => s!"Unexpected test command: {command}"
  | .unreadable error program =>
    s!"Failed to parse program: {error.display}\n\nProgram text:\n{program}"
  | .printedOtherwise expected actual program =>
    s!"Cat test failed!\n\nExpected:\n{expected}\n\nActual:\n{actual}\n\n" ++
      s!"Original program:\n{program}"
  | .printedUnreadable error printed =>
    s!"Failed to re-parse printed program: {error.display}\n\n{printed}"
  | .printedDiffers printed => s!"Printed program does not round-trip:\n{printed}"
  | .checks failure assembly =>
    s!"Asm test failed!\n\n{failure.message}\n\nAssembly:\n{assembly}"
  | .checksOnIndent failure assembly =>
    s!"Asm test failed with a space indent!\n\n{failure.message}\n\nAssembly:\n{assembly}"
  | .assemblyUnreadable error assembly =>
    s!"Failed to parse printed assembly: {error.display}\n\n{assembly}"
  | .assemblyDiffers assembly =>
    s!"Assembly does not parse back to the original program:\n{assembly}"
  | .problems actual program =>
    "Verifier test failed: expected valid program but got errors:\n" ++
      s!"{listProblems actual}\n\nProgram:\n{program}"
  | .noProblems program =>
    s!"Verifier test failed: expected errors but program is valid\n\nProgram:\n{program}"
  | .problemCount expected actual program =>
    s!"Verifier test failed: expected {expected} errors but got {actual.length}\n\n" ++
      s!"Actual errors:\n{listProblems actual}\n\nProgram:\n{program}"
  | .problemMissing expected actual program =>
    s!"Verifier test failed: expected error message '{expected}' not found\n\n" ++
      s!"Actual errors:\n{listProblems actual}\n\nProgram:\n{program}"

end TestFailure

/-! ### Running one case -/

namespace TestCase

/-- The program of a test. -/
def readProgram (test : TestCase) : Except TestFailure Program :=
  (Generic.parseProgram .riscv (String.ofList (Text.trim test.program.toList))).mapError
    fun error => .unreadable error test.program

/-- Print the program, compare with what is expected line by line, and read it back. -/
def runCat (test : TestCase) : Except TestFailure Unit := do
  let program ← test.readProgram
  let actual := program.generic
  if normalizeProgramText actual ≠ normalizeProgramText test.expected then
    throw (.printedOtherwise test.expected actual test.program)
  let back ← (Generic.parseProgram .riscv actual).mapError (.printedUnreadable · actual)
  if back ≠ program then throw (.printedDiffers actual)

/-- Match the assembly of the program, with either indentation, and read it back. -/
def runAsm (engine : CheckEngine) (test : TestCase) : Except TestFailure Unit := do
  let program ← test.readProgram
  let assembly := program.assembly {}
  (matchListing engine assembly test.expected).mapError (.checks · assembly)
  let indented := program.assembly { indent := "    " }
  (matchListing engine indented test.expected).mapError (.checksOnIndent · indented)
  let back ← (Assembly.parse .riscv assembly).mapError (.assemblyUnreadable · assembly)
  if back ≠ program then throw (.assemblyDiffers assembly)

/-- What starts the announcement of a problem. -/
def announcement : List Char := "// error:".toList

/-- The texts of the problems that the lines of a program announce. -/
def announcedProblems (test : TestCase) : List (List Char) :=
  (Text.lineContents test.program.toList).filterMap fun line =>
    (Text.afterFirst? announcement line).map Text.trim

/-- Compare the problems with labels with those announced: in number, and each announced text must
occur in some problem. -/
def runVerifier (test : TestCase) (allowExternal : Bool) : Except TestFailure Unit := do
  let program ← test.readProgram
  let expected := test.announcedProblems
  let actual := program.labelProblems allowExternal
  if expected.isEmpty then
    if ¬ actual.isEmpty then throw (.problems actual test.program)
  else if actual.isEmpty then throw (.noProblems test.program)
  else if actual.length ≠ expected.length then
    throw (.problemCount expected.length actual test.program)
  else
    match expected.find? fun text =>
      !actual.any fun problem => Text.occursIn text problem.message.toList with
    | some text => throw (.problemMissing (String.ofList text) actual test.program)
    | none => return ()

end TestCase

/-! ### Running a file -/

namespace TestKind

/-- Run one case, whose command must be one for this kind of test. -/
def runCase (kind : TestKind) (test : TestCase) : Except TestFailure Unit :=
  match kind, test.command with
  | .cat, "test cat" => test.runCat
  | .asm engine, "test asm" => test.runAsm engine
  | .verifier, "test verifier" => test.runVerifier false
  | .verifier, "test verifier external" => test.runVerifier true
  | _, command => .error (.otherCommand command)

/-- Run the cases of a file, up to the first that fails. -/
def run (kind : TestKind) (content : String) : Except TestFailure Unit :=
  match TestFile.cases content with
  | [] => .error .noCases
  | cases => cases.forM kind.runCase

end TestKind

end RiscvDialect

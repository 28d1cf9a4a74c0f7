import RiscvDialect.Listing

/-!
# Checks on a listing

Directives say what a listing has to show. How they are written, and when a listing shows what they
ask for, is up to an engine that is made elsewhere. The engine takes directives one by one, tells
whether a text passes, and explains why it does not. Here it is given the lines of a text as its
directives, and a listing in its normalized form.

## Main definitions

* `CheckEngine`: what an engine is asked for
* `CheckEngine.build`: the checker for the directives on the lines of a text
* `MatchFailure`: why a listing is not matched
* `matchListing`: match a listing with directives
-/

namespace RiscvDialect

/-! ### Engines -/

/-- An engine for checks, known by its answers. Its errors are texts of its own. -/
structure CheckEngine where
  /-- Some directives, to which more may be added. -/
  Builder : Type
  /-- All directives, ready to be checked. -/
  Checker : Type
  /-- No directives yet. -/
  new : Builder
  /-- One directive more, if the line is one. -/
  directive : Builder → String → Except String Builder
  /-- No directive will be added. -/
  finish : Builder → Checker
  /-- Whether a text passes. -/
  check : Checker → String → Except String Bool
  /-- Whether a text passes, and an explanation. -/
  explain : Checker → String → Except String (Bool × String)

/-- Why a listing is not matched. -/
inductive MatchFailure where
  /-- A line is refused as a directive. -/
  | directive (line reason : String)
  /-- The engine fails on the listing. -/
  | check (reason : String)
  /-- The listing does not pass. -/
  | mismatch (explanation : String)
  /-- The listing does not pass, and the engine fails on the explanation. -/
  | unexplained (reason : String)
  deriving DecidableEq, Repr

/-- The failure in words. -/
def MatchFailure.message : MatchFailure → String
  | .directive line reason => s!"Failed to parse filecheck directive '{line}': {reason}"
  | .check reason => s!"Filecheck error: {reason}"
  | .mismatch explanation => s!"Filecheck failed:\n{explanation}"
  | .unexplained reason => s!"Failed to get filecheck explanation: {reason}"

namespace CheckEngine

variable (engine : CheckEngine)

/-- Add a directive. -/
def add (builder : engine.Builder) (line : String) : Except MatchFailure engine.Builder :=
  (engine.directive builder line).mapError (.directive line)

/-- The checker for the directives on the lines of a text. White space around a directive does not
count, and lines of nothing else are left out. -/
def build (directives : String) : Except MatchFailure engine.Checker :=
  let lines := ((Text.lineContents directives.toList).map Text.trim).filter (!·.isEmpty)
  engine.finish <$> (lines.map String.ofList).foldlM engine.add engine.new

end CheckEngine

/-! ### Matching -/

/-- Match the statements of a listing with directives. -/
def matchListing (engine : CheckEngine) (listing directives : String) :
    Except MatchFailure Unit := do
  let checker ← engine.build directives
  let statements := normalizeListing listing
  let passed ← (engine.check checker statements).mapError .check
  if ¬ passed then
    let (_, explanation) ← (engine.explain checker statements).mapError .unexplained
    throw (.mismatch explanation)

end RiscvDialect

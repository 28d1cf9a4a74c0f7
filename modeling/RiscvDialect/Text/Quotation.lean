/-!
# Quotation

A scan that tells the characters of a line inside double quotes from those outside. A backslash
inside quotes protects the character after it; quotes that are never closed run to the end.

## Main definitions

* `QuoteState`: what the scan remembers
* `unquoted`: the characters outside quotes
* `uncommented`: a line of assembly without its `#` comment
-/

namespace RiscvDialect.Text

/-- Where a scan stands with respect to double quotes. -/
inductive QuoteState where
  /-- Outside all quotes. -/
  | outside
  /-- Between two quotes. -/
  | inside
  /-- Between two quotes, right after a backslash. -/
  | escaped
  deriving DecidableEq, Repr

/-- The state after one more character. -/
def QuoteState.step : QuoteState → Char → QuoteState
  | .outside, c => if c = '"' then .inside else .outside
  | .inside, c => if c = '"' then .outside else if c = '\\' then .escaped else .inside
  | .escaped, _ => .inside

/-- The characters read outside quotes when a scan starts in `state`. -/
def unquotedFrom (state : QuoteState) : List Char → List Char
  | [] => []
  | c :: rest =>
    if state = .outside then c :: unquotedFrom (state.step c) rest
    else unquotedFrom (state.step c) rest

/-- The characters of a line that stand outside quotes; an opening quote is one of them. -/
def unquoted (line : List Char) : List Char :=
  unquotedFrom .outside line

/-- The part of a line before the first `#` outside quotes when a scan starts in `state`. -/
def uncommentedFrom (state : QuoteState) : List Char → List Char
  | [] => []
  | c :: rest =>
    if state = .outside ∧ c = '#' then [] else c :: uncommentedFrom (state.step c) rest

/-- The part of a line before its comment: a `#` outside quotes starts one. -/
def uncommented (line : List Char) : List Char :=
  uncommentedFrom .outside line

end RiscvDialect.Text

import RiscvDialect.Error
import RiscvDialect.Text.Position
import RiscvDialect.Text.Space

/-!
# Reading texts

A reader takes a value off the start of a text and answers with the value and what is left of the
text. A reader that fails says what was wrong and where: the part of the text that it could not
read. Only when a failure is reported is that part turned into a position and a message.

## Main definitions

* `Fault`: a failure, with the part of the text that could not be read
* `ParseError`: a failure as it is reported, with `ParseError.message` for its wording
* `Fault.report`: the report of a failure in a given text
* `expectChar`: a reader for one given character
* `Leaves`: some of a text was read and the rest of it is left

## Main statements

* `Except.bind_eq_ok`, `Except.map_eq_ok`: readers in a row succeed when each of them does
-/

namespace RiscvDialect

/-! ### Failures -/

/-- What keeps a text from being read. -/
inductive FaultReason where
  /-- Something else was expected. -/
  | expected (what : String)
  /-- An integer is not a 64-bit integer, or a width not a 32-bit number. -/
  | integerRange
  /-- What was read is no part of the dialect. -/
  | refused (error : DialectError)
  deriving DecidableEq, Repr

/-- A failure to read a text. -/
structure Fault where
  /-- The part of the text that could not be read. -/
  rest : List Char
  /-- What is wrong with it. -/
  reason : FaultReason
  deriving DecidableEq, Repr

/-- Fail because `what` was expected where `rest` starts. -/
def Fault.expected {α : Type} (what : String) (rest : List Char) : Except Fault α :=
  .error ⟨rest, .expected what⟩

/-- Fail where `rest` starts if the dialect refuses what was read there. -/
def Fault.ofRefusal {α : Type} (rest : List Char) : Except DialectError α → Except Fault α
  | .ok value => .ok value
  | .error e => .error ⟨rest, .refused e⟩

theorem Fault.of_ofRefusal_eq_ok {α : Type} {rest : List Char} {x : Except DialectError α} {a : α}
    (h : Fault.ofRefusal rest x = .ok a) : x = .ok a := by
  cases x <;> simp_all [Fault.ofRefusal]

/-! ### Reports -/

/-- What a report says is wrong. -/
inductive ParseProblem where
  /-- Something else was expected than what was found. -/
  | expected (what found : String)
  /-- An integer is out of range. -/
  | integerRange
  /-- What was read is no part of the dialect. -/
  | refused (error : DialectError)
  deriving DecidableEq, Repr

/-- A failure as it is reported. -/
structure ParseError where
  /-- Where the text could not be read. -/
  position : Text.Position
  /-- What is wrong there. -/
  problem : ParseProblem
  deriving DecidableEq, Repr

namespace ParseError

/-- The problem in words. -/
def message (e : ParseError) : String :=
  match e.problem with
  | .expected what found => s!"expected {what}, found {found}"
  | .integerRange => "integer literal out of range"
  | .refused error => error.message

/-- What the dialect refused, if that is the problem. -/
def cause? (e : ParseError) : Option DialectError :=
  match e.problem with
  | .refused error => some error
  | _ => none

/-- The problem in words, with its place. -/
def display (e : ParseError) : String :=
  s!"Parse error at line {e.position.line}, column {e.position.column}: {e.message}"

end ParseError

/-- The number of characters that a report quotes at most. -/
def quotedLength : Nat := 24

/-- What is found where `rest` starts: the first characters of the line, if there are any other
than white space. -/
def describeFound (rest : List Char) : String :=
  let line := Text.trimEnd (rest.takeWhile (· != '\n'))
  if line.isEmpty then
    if (Text.trim rest).isEmpty then "end of input" else "end of line"
  else if line.length ≤ quotedLength then "'" ++ String.ofList line ++ "'"
  else "'" ++ String.ofList (line.take quotedLength) ++ "...'"

/-- The report of a failure in `text`, which itself starts at `start`. -/
def Fault.report (start : Text.Position) (text : List Char) (fault : Fault) : ParseError where
  position := start.advance (text.take (text.length - fault.rest.length))
  problem :=
    match fault.reason with
    | .expected what => .expected what (describeFound fault.rest)
    | .integerRange => .integerRange
    | .refused error => .refused error

/-! ### Readers -/

/-- Read one given character. -/
def expectChar (c : Char) (text : List Char) : Except Fault (List Char) :=
  match text with
  | d :: rest => if d = c then .ok rest else Fault.expected s!"'{c}'" text
  | [] => Fault.expected s!"'{c}'" text

/-- Some characters of `text` were read, at least one, and `rest` is left. -/
structure Leaves (text rest : List Char) : Prop where
  suffix : rest <:+ text
  length_lt : rest.length < text.length

namespace Leaves

variable {s t u : List Char} {c : Char}

theorem of_suffix (h : t <:+ s) : Leaves (c :: s) t where
  suffix := h.trans (List.suffix_cons c s)
  length_lt := Nat.lt_succ_of_le h.length_le

theorem trans_suffix (h : Leaves s t) (h' : u <:+ t) : Leaves s u where
  suffix := h'.trans h.suffix
  length_lt := Nat.lt_of_le_of_lt h'.length_le h.length_lt

theorem trans (h : Leaves s t) (h' : Leaves t u) : Leaves s u :=
  h.trans_suffix h'.suffix

theorem of_suffix_trans (h : t <:+ s) (h' : Leaves t u) : Leaves s u where
  suffix := h'.suffix.trans h
  length_lt := Nat.lt_of_lt_of_le h'.length_lt h.length_le

end Leaves

theorem leaves_of_expectChar {c : Char} {text rest : List Char}
    (h : expectChar c text = .ok rest) : Leaves text rest := by
  unfold expectChar at h
  split at h
  · split at h
    · cases h
      exact .of_suffix (List.suffix_refl _)
    · simp [Fault.expected] at h
  · simp [Fault.expected] at h

end RiscvDialect

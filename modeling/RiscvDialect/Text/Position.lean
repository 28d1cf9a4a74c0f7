/-!
# Positions

Where something stands in a text, counted in three ways.

## Main definitions

* `Position`: a byte offset together with a line and a column
* `Position.advance`: the position after reading some more text

## Main statements

* `Position.advance_append`: reading two texts in a row is reading one after the other
-/

namespace RiscvDialect.Text

/-- A place in a text. -/
structure Position where
  /-- The number of bytes before it, in UTF-8. -/
  offset : Nat
  /-- Its line; the first line is 1. -/
  line : Nat
  /-- Its column, counted in characters; the first column is 1. -/
  column : Nat
  deriving DecidableEq, Repr

namespace Position

/-- The place before the first character. -/
def start : Position := ⟨0, 1, 1⟩

/-- The place after one more character: a newline starts the next line. -/
def step (p : Position) (c : Char) : Position :=
  if c = '\n' then ⟨p.offset + c.utf8Size, p.line + 1, 1⟩
  else ⟨p.offset + c.utf8Size, p.line, p.column + 1⟩

/-- The place after reading `text` from `p` on. -/
def advance (p : Position) (text : List Char) : Position :=
  text.foldl step p

@[simp] theorem advance_nil (p : Position) : p.advance [] = p := rfl

@[simp] theorem advance_cons (p : Position) (c : Char) (text : List Char) :
    p.advance (c :: text) = (p.step c).advance text := rfl

@[simp] theorem advance_append (p : Position) (s t : List Char) :
    p.advance (s ++ t) = (p.advance s).advance t :=
  List.foldl_append

end Position

end RiscvDialect.Text

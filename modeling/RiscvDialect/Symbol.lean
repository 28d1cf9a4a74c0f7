/-!
# Symbols

A symbol names a label, a mnemonic or a directive: a letter, `_`, `.` or `$`, followed by any
number of these and of digits. Letters and digits are the ASCII ones.

## Main definitions

* `isSymbol`: is a text a symbol?
* `readSymbol`: the longest symbol at the start of a text

## Main statements

* `readSymbol_eq_some`: what was read is a symbol, and the text is it followed by what is left
-/

namespace RiscvDialect

/-- The characters that can start a symbol. -/
def isSymbolStart (c : Char) : Bool :=
  c.isAlpha || c == '_' || c == '.' || c == '$'

/-- The characters that can continue a symbol. -/
def isSymbolChar (c : Char) : Bool :=
  isSymbolStart c || c.isDigit

/-- Symbols are not empty, start with a starting character and go on with continuing ones. -/
def isSymbol : List Char → Bool
  | [] => false
  | c :: rest => isSymbolStart c && rest.all isSymbolChar

/-- Read the longest symbol at the start of a text. -/
def readSymbol : List Char → Option (List Char × List Char)
  | [] => none
  | c :: rest =>
    if isSymbolStart c then some (c :: rest.takeWhile isSymbolChar, rest.dropWhile isSymbolChar)
    else none

theorem readSymbol_eq_some {text name rest : List Char}
    (h : readSymbol text = some (name, rest)) : isSymbol name ∧ text = name ++ rest := by
  unfold readSymbol at h
  split at h
  · simp at h
  · next c tail =>
    split at h
    · next hc =>
      cases h
      simp [isSymbol, hc]
    · simp at h

end RiscvDialect

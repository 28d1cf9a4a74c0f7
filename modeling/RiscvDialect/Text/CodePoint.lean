/-!
# Sets of code points

A property of characters is a table: the code points that have it, as ranges in ascending order.

## Main definitions

* `CodePointRanges`: a table
* `CodePointRanges.contains`: whether a character has the property
-/

namespace RiscvDialect.Text

/-- Ranges of code points, each given by its first and its last. -/
abbrev CodePointRanges := List (Nat × Nat)

namespace CodePointRanges

/-- Whether the code point of a character is in one of the ranges. -/
def contains (ranges : CodePointRanges) (c : Char) : Bool :=
  ranges.any fun (first, last) => first ≤ c.toNat && c.toNat ≤ last

end CodePointRanges

end RiscvDialect.Text

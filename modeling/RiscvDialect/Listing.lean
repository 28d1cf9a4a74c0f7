import RiscvDialect.Text.Line
import RiscvDialect.Text.Quotation
import RiscvDialect.Text.Space

/-!
# Listings

A listing of assembly is compared by its statements alone: comments, indentation and empty lines
do not count.

## Main definitions

* `normalizeListing`: the statements of a listing, one on each line
-/

namespace RiscvDialect

/-- The statements of a listing, without comments and without white space around them. -/
def listingStatements (text : List Char) : List (List Char) :=
  ((Text.lineContents text).map fun line => Text.trim (Text.uncommented line)).filter
    (!·.isEmpty)

/-- The statements of a listing, one on each line. -/
def normalizeListing (text : String) : String :=
  String.join ((listingStatements text.toList).map fun statement =>
    String.ofList statement ++ "\n")

end RiscvDialect

import RiscvDialect.Assembly.Parser
import RiscvDialect.Assembly.Printer
import RiscvDialect.Generic.Parser
import RiscvDialect.Generic.Printer
import RiscvDialect.LabelCheck
import RiscvDialect.Listing.Check
import RiscvDialect.Proofs.Assembly.Grammar.Statement
import RiscvDialect.Proofs.Assembly.Locality
import RiscvDialect.Proofs.Registry.Run
import RiscvDialect.Proofs.TestFile.Cat
import RiscvDialect.Proofs.WellFormed
import RiscvDialect.Proofs.Formats
import RiscvDialect.Proofs.Generic.Truncation
import RiscvDialect.Proofs.Reports
import RiscvDialect.Text.Search
import RiscvDialect.TestFile.Run
import RiscvDialect.Proofs.Monotone
import RiscvDialect.Proofs.Instruction
import RiscvDialect.Proofs.LabelCheck
import RiscvDialect.Proofs.Listing
import RiscvDialect.Proofs.Construction
import RiscvDialect.Proofs.TestFile.Normalize
import RiscvDialect.Proofs.TestFile.Split
import RiscvDialect.Proofs.TestFile.Verifier
import RiscvDialect.Proofs.Registry.Dialect
import RiscvDialect.Proofs.Aliases
import RiscvDialect.Proofs.Assembly.Range
import RiscvDialect.Proofs.Opcode
import RiscvDialect.Proofs.Register.Outcome
import RiscvDialect.Proofs.Numeral.Literal
import RiscvDialect.Proofs.Operands
import RiscvDialect.Proofs.TestFile.Segments
import RiscvDialect.Proofs.Text.Comment

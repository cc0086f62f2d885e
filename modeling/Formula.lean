import Formula.Alphabet
import Formula.Cursor
import Formula.Diagnostic
import Formula.Failure
import Formula.Grammar
import Formula.Journal
import Formula.Location
import Formula.Operator
import Formula.Parser
import Formula.Parser.Level
import Formula.Parser.Run
import Formula.Parser.Step
import Formula.Proofs.Blank
import Formula.Proofs.Budget
import Formula.Proofs.Candidates
import Formula.Proofs.Caret
import Formula.Proofs.Chain
import Formula.Proofs.Completeness
import Formula.Proofs.Composition
import Formula.Proofs.Dangling
import Formula.Proofs.Evidence
import Formula.Proofs.Gist
import Formula.Proofs.Highlights
import Formula.Proofs.LeftOfSign
import Formula.Proofs.Lines
import Formula.Proofs.LoneSign
import Formula.Proofs.Nesting
import Formula.Proofs.Occurrences
import Formula.Proofs.Offset
import Formula.Proofs.Pieces
import Formula.Proofs.Rendering
import Formula.Proofs.Reparsing
import Formula.Proofs.Replay
import Formula.Proofs.Respacing
import Formula.Proofs.RoundTrip
import Formula.Proofs.Run
import Formula.Proofs.Searches
import Formula.Proofs.Slices
import Formula.Proofs.Soundness
import Formula.Proofs.Step
import Formula.Proofs.Surfacing
import Formula.Proofs.Table
import Formula.Proofs.TextSubstitution
import Formula.Proofs.Tokens
import Formula.Proofs.Unfinished
import Formula.Proofs.Written
import Formula.Proofs.Yield
import Formula.Reading
import Formula.Report
import Formula.Split
import Formula.SymbolTable
import Formula.Text.Lines
import Formula.Text.Printable
import Formula.Text.Quoted
import Formula.Text.Slice
import Formula.Text.Upper
import Formula.Token
import Formula.Tree
import Formula.Tree.Printer
import Formula.Tree.Sketch
import Formula.Tree.Substitution

import LispXref.Main
import LispXref.Proofs.Form.Address
import LispXref.Proofs.Form.Nodes
import LispXref.Proofs.Form.Site
import LispXref.Proofs.Form.Trail
import LispXref.Proofs.Form.Walk
import LispXref.Proofs.Gap
import LispXref.Proofs.Lexeme.Checked
import LispXref.Proofs.Lexeme.Cut
import LispXref.Proofs.Lexeme.Layout
import LispXref.Proofs.Lexeme.LineEnd
import LispXref.Proofs.Lexeme.Radix
import LispXref.Proofs.Lexeme.Spelling
import LispXref.Proofs.Lexicon.Chain
import LispXref.Proofs.Lexicon.Harvest
import LispXref.Proofs.Lexicon.QuotedNames
import LispXref.Proofs.Numeral.Positional
import LispXref.Proofs.Reader.Checked
import LispXref.Proofs.Reader.Completeness
import LispXref.Proofs.Reader.Concatenation
import LispXref.Proofs.Reader.IntegerLiteral
import LispXref.Proofs.Reader.Names
import LispXref.Proofs.Reader.Position
import LispXref.Proofs.Reader.Progress
import LispXref.Proofs.Reader.Reread
import LispXref.Proofs.Reader.Run
import LispXref.Proofs.Reader.Tiling
import LispXref.Proofs.Reader.Truncation
import LispXref.Proofs.Report.WholeLines
import LispXref.Proofs.Search.Aggregation
import LispXref.Proofs.Search.Binding
import LispXref.Proofs.Search.Concatenation
import LispXref.Proofs.Search.Kinds
import LispXref.Proofs.Search.Leaves
import LispXref.Proofs.Search.Matches
import LispXref.Proofs.Search.Occurrences
import LispXref.Proofs.Search.Prefilter
import LispXref.Proofs.Search.Truncation
import LispXref.Proofs.Search.WrittenOut
import LispXref.Proofs.Workspace.History
import LispXref.Proofs.Workspace.Interleaving
import LispXref.Proofs.Workspace.LastStored
import LispXref.Proofs.Workspace.Tree

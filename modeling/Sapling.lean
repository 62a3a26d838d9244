import Sapling.Main
import Sapling.CommandLine.Perform
import Sapling.Session
import Sapling.Text.Width
import Sapling.Parser.Program
import Sapling.Syntax.Error
import Sapling.Token.Lexer
import Sapling.Value
import Sapling.Proofs.Grammar
import Sapling.Proofs.Unambiguity
import Sapling.Proofs.Derivation
import Sapling.Proofs.Lexemes
import Sapling.Proofs.Layout
import Sapling.Proofs.Relabeling
import Sapling.Proofs.SourceText
import Sapling.Proofs.Printing
import Sapling.Proofs.Lines
import Sapling.Proofs.Clusters
import Sapling.Proofs.Rendering
import Sapling.Proofs.WordSizes
import Sapling.Proofs.ErrorPlaces
import Sapling.Proofs.ErrorDiagnostics
import Sapling.Proofs.Trails
import Sapling.Proofs.Replays
import Sapling.Proofs.Concatenation
import Sapling.Proofs.BrokenDrawings
import Sapling.Proofs.Numerals
import Sapling.Proofs.Relayout
import Sapling.Proofs.Values
import Sapling.Proofs.Consumption
import Sapling.Proofs.Histories
import Sapling.Proofs.Literals
import Sapling.Proofs.ErrorOrder
import Sapling.Proofs.Semicolons
import Sapling.Proofs.Headings
import Sapling.Proofs.FileTrees
import Sapling.Proofs.CommandLines
import Sapling.Proofs.Holes
import Sapling.Proofs.Typesetting
import Sapling.Proofs.Columns
import Sapling.Proofs.Excerpts
import Sapling.Proofs.WholeDrawings
import Sapling.Proofs.Positions
import Sapling.Proofs.ColouredDrawings
import Sapling.Proofs.ShownLines
import Sapling.Proofs.Components
import Sapling.Proofs.SnippetOrder
import Sapling.Proofs.LineContents
import Sapling.Proofs.Calls

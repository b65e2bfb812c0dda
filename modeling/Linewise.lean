import Linewise.Command
import Linewise.CommandLine
import Linewise.Decimal.Layout
import Linewise.Decimal.Numeral
import Linewise.Decimal.Shortest
import Linewise.Document.Fault
import Linewise.Document.Number
import Linewise.Document.Reader
import Linewise.Document.Skim
import Linewise.Document.State
import Linewise.Document.Text
import Linewise.Document.Writer
import Linewise.Double.Rounding
import Linewise.Expr
import Linewise.Expr.Eval
import Linewise.Expr.Parser
import Linewise.Files
import Linewise.Integer
import Linewise.Main
import Linewise.Prompt
import Linewise.Session
import Linewise.Step
import Linewise.Store
import Linewise.Table
import Linewise.Text.Blank
import Linewise.Text.Letter
import Linewise.Text.Numeric
import Linewise.Text.Quoted
import Linewise.Text.Ranges
import Linewise.Text.Segments
import Linewise.Text.Shown
import Linewise.Token
import Linewise.Token.Lexer
import Linewise.Value
import Linewise.Proofs.ExpressionGrammar
import Linewise.Proofs.ParserExactness
import Linewise.Proofs.TreeHeight
import Linewise.Proofs.DocumentLiterals
import Linewise.Proofs.DocumentParts
import Linewise.Proofs.DocumentRoundTrip
import Linewise.Proofs.FilePersistence
import Linewise.Proofs.FiniteDocuments
import Linewise.Proofs.FiniteStates
import Linewise.Proofs.SaveLoad
import Linewise.Proofs.SpacedLexemes
import Linewise.Proofs.ExpressionRoundTrip
import Linewise.Proofs.Surroundings
import Linewise.Proofs.LineFrame
import Linewise.Proofs.FailedLines
import Linewise.Proofs.NamespaceIndependence
import Linewise.Proofs.ExpressionNames
import Linewise.Proofs.TokenSubstitution
import Linewise.Proofs.BlankBoundaries
import Linewise.Proofs.ExactIntegers
import Linewise.Proofs.ExpressionLines
import Linewise.Proofs.PromptSimulation
import Linewise.Proofs.DriverRuns
import Linewise.Proofs.DepthCounter
import Linewise.Proofs.TrapFreedom
import Linewise.Proofs.DoubleEncoding
import Linewise.Proofs.NearestDouble
import Linewise.Proofs.ShortestDecimal
import Linewise.Proofs.DoubleLiterals
import Linewise.Proofs.DoubleRoundTrip
import Linewise.Proofs.WrittenNumbers
import Linewise.Proofs.DictionaryHistory
import Linewise.Proofs.ViablePrefix
import Linewise.Proofs.ScannerStates
import Linewise.Proofs.MaximalMunch
import Linewise.Proofs.BlankSeparation
import Linewise.Proofs.RemainderAndPower
import Linewise.Proofs.DoubleOrder
import Linewise.Proofs.Comparisons
import Linewise.Proofs.CountedBooleans
import Linewise.Proofs.NumberReaders
import Linewise.Proofs.StateOption
import Linewise.Proofs.BranchText
import Linewise.Proofs.TextGrowth
import Linewise.Proofs.DocumentGrammar
import Linewise.Proofs.NameOrder
import Linewise.Proofs.TolerantReading
import Linewise.Proofs.WrittenDocuments
import Linewise.Proofs.CanonicalFiles

import LineCalculator.Batch
import LineCalculator.CommandLine.Conversation
import LineCalculator.CommandLine.Dump
import LineCalculator.CommandLine.FileTree
import LineCalculator.CommandLine.Flags
import LineCalculator.CommandLine.Help
import LineCalculator.CommandLine.Invocation
import LineCalculator.CommandLine.Narration
import LineCalculator.CommandLine.Settings
import LineCalculator.CommandLine.Trace
import LineCalculator.Eval.Arithmetic
import LineCalculator.Eval.Diagnostic
import LineCalculator.Eval.Run
import LineCalculator.Eval.Store
import LineCalculator.Lexer.Calculator
import LineCalculator.Lexer.Pattern
import LineCalculator.Lexer.Piece
import LineCalculator.Lexer.Reading
import LineCalculator.Lexer.Regex
import LineCalculator.Lexer.Rule
import LineCalculator.Lexer.Vocabulary
import LineCalculator.Lexer.WrittenRegex
import LineCalculator.Main
import LineCalculator.Output.LineSink
import LineCalculator.Output.Writer
import LineCalculator.Parse.Line
import LineCalculator.Parse.Source
import LineCalculator.Parse.Symbol
import LineCalculator.Parse.SyntaxError
import LineCalculator.Program.Expr
import LineCalculator.Program.Fault
import LineCalculator.Program.Operator
import LineCalculator.Program.Outline
import LineCalculator.Program.ReversePolish
import LineCalculator.Program.Stmt
import LineCalculator.Proofs.Arithmetic
import LineCalculator.Proofs.Blanks
import LineCalculator.Proofs.Dependence
import LineCalculator.Proofs.Drawings
import LineCalculator.Proofs.Emissions
import LineCalculator.Proofs.Exactness
import LineCalculator.Proofs.Faults
import LineCalculator.Proofs.Framing
import LineCalculator.Proofs.FullWriters
import LineCalculator.Proofs.Grammar
import LineCalculator.Proofs.JoinedTexts
import LineCalculator.Proofs.Lines
import LineCalculator.Proofs.Literals
import LineCalculator.Proofs.LongestMatch
import LineCalculator.Proofs.OneLine
import LineCalculator.Proofs.Outlines
import LineCalculator.Proofs.Output
import LineCalculator.Proofs.Parsing
import LineCalculator.Proofs.RefusedLines
import LineCalculator.Proofs.RefusedTokens
import LineCalculator.Proofs.Residues
import LineCalculator.Proofs.RoundTrip
import LineCalculator.Proofs.Running
import LineCalculator.Proofs.Scanning
import LineCalculator.Proofs.Sessions
import LineCalculator.Proofs.Spelling
import LineCalculator.Proofs.Statements
import LineCalculator.Proofs.Strictness
import LineCalculator.Proofs.Tables
import LineCalculator.Proofs.Tokenizing
import LineCalculator.Proofs.UnassignedReads
import LineCalculator.Proofs.Vocabularies
import LineCalculator.Proofs.Wrapping
import LineCalculator.Proofs.Writers
import LineCalculator.Proofs.Writing
import LineCalculator.Session
import LineCalculator.Session.Display
import LineCalculator.Text.Blank
import LineCalculator.Text.Bytes
import LineCalculator.Text.Colouring
import LineCalculator.Text.Decimal
import LineCalculator.Text.Lines
import LineCalculator.Text.LowerCase
import LineCalculator.Text.Markup
import LineCalculator.Text.Position
import LineCalculator.Text.Printable
import LineCalculator.Text.Quoted
import LineCalculator.Text.Utf8
import LineCalculator.Token
import LineCalculator.Token.Kind
import LineCalculator.Token.Span
import LineCalculator.Variables.Table
import LineCalculator.Variables.Workspace

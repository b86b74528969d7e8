import Script.Text
import Script.Text.Glyph
import Script.Text.CodeClass
import Script.Text.Letter
import Script.Text.Printable
import Script.Text.Quoted
import Script.Number.Decimal
import Script.Number.Shortest
import Script.Number.Format
import Script.Token
import Script.Token.Segment
import Script.Diagnostic
import Script.Token.Scan
import Script.Fault
import Script.Failure
import Script.Tree
import Script.Tree.Cursor
import Script.Tree.ExprParser
import Script.Tree.StmtParser
import Script.Tree.Program
import Script.Tree.SExpression
import Script.Scope
import Script.Scope.Distance
import Script.Scope.Hole
import Script.Scope.Problem
import Script.Scope.Resolution
import Script.Value
import Script.Value.Slot
import Script.Frame
import Script.Machine
import Script.Machine.Operator
import Script.Machine.Evaluate
import Script.Session
import Script.Console.FileTree
import Script.Console.Path
import Script.Yaml.Character
import Script.Yaml.Fault
import Script.Yaml.Encoding
import Script.Yaml.Cursor
import Script.Yaml.Comment
import Script.Yaml.Scalar.Gap
import Script.Yaml.Scalar.Plain
import Script.Yaml.Scalar.Quoted
import Script.Yaml.Scalar.Block
import Script.Yaml.Token
import Script.Yaml.Tag
import Script.Yaml.Directive
import Script.Yaml.Scanner
import Script.Yaml.Node
import Script.Yaml.Timestamp
import Script.Yaml.Base64
import Script.Yaml.Meaning
import Script.Yaml.Tally
import Script.Yaml.Content
import Script.Yaml.Content.Read
import Script.Yaml.Compose
import Script.Settings
import Script.Settings.Load
import Script.Console.ScriptFile
import Script.Console.History
import Script.Console.Flag
import Script.Console.Repl
import Script.Console.Command
import Script.Main
import Script.Proofs.Grammar.Language
import Script.Proofs.Tree.Building
import Script.Proofs.Lexical.Agreement
import Script.Proofs.Lexical.Safety
import Script.Proofs.Grammar.ExprCut
import Script.Proofs.Grammar.StmtCut
import Script.Proofs.Relabel.Evaluate
import Script.Proofs.Relabel.Scope
import Script.Proofs.Session.Buffered
import Script.Proofs.Token.Exact
import Script.Proofs.Session.Joined
import Script.Proofs.Renaming.Address
import Script.Proofs.Session.Renamed
import Script.Proofs.Running.LoopFree
import Script.Proofs.Session.Layout
import Script.Proofs.Slice.Total
import Script.Proofs.Printing.Injective
import Script.Proofs.Scope.Reported
import Script.Proofs.Running.Returning
import Script.Proofs.Calls.Bounded
import Script.Proofs.Looping.Equivalence
import Script.Proofs.Parsing.Joined
import Script.Proofs.Parsing.Braces
import Script.Proofs.Parsing.Semicolon
import Script.Proofs.Receiver.Unchanged
import Script.Proofs.Token.Counted
import Script.Proofs.Number.Shown
import Script.Proofs.Lexical.Globals
import Script.Proofs.Mending.Source
import Script.Proofs.Session.FirstLine
import Script.Proofs.Tree.Node
import Script.Proofs.Nesting.Balanced
import Script.Proofs.Lexical.Chain

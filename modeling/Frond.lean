import Frond.Token.Kind
import Frond.Token.Basic
import Frond.Bytes.Basic
import Frond.Bytes.Utf8
import Frond.Bytes.Escape
import Frond.Lexer.Scan
import Frond.Lexer.Basic
import Frond.Diagnostic
import Frond.Host
import Frond.TokenStream
import Frond.Text.Decimal
import Frond.SwapRemove
import Frond.Scheduler.Random
import Frond.Scheduler.Basic
import Frond.Arena.Memory
import Frond.Arena.Basic
import Frond.Arena.Vector
import Frond.Scheduler.InPlace
import Frond.Text.Printable
import Frond.Text.GraphemeExtend
import Frond.Text.Quoted
import Frond.Text.Format
import Frond.Text.FormatInArena
import Frond.Lexer.Escapes
import Frond.Text.Numeral
import Frond.Text.Blank
import Frond.Text.Similarity
import Frond.Cli.Spec
import Frond.Cli.UsageError
import Frond.Cli.Parse
import Frond.Cli.Invocation
import Frond.Cli.Run
import Frond.Main
import Frond.Proofs.Lexer.Step
import Frond.Proofs.Lexer.Segmentation
import Frond.Proofs.Lexer.Interpolation
import Frond.Proofs.Lexer.BraceStack
import Frond.Proofs.Lexer.Grammar
import Frond.Proofs.Lexer.MaximalMunch
import Frond.Proofs.Lexer.Position
import Frond.Proofs.Lexer.Restore
import Frond.Proofs.Lexer.EscapeUnits
import Frond.Proofs.Lexer.StringLiteral
import Frond.Proofs.Scheduler.Step
import Frond.Proofs.Scheduler.Session
import Frond.Proofs.Scheduler.RandomState
import Frond.Proofs.Scheduler.Reservoir
import Frond.Proofs.Scheduler.Refusal
import Frond.Proofs.Text.TwoPass
import Frond.Proofs.Arena.Invariant
import Frond.Proofs.Arena.VectorRefinement
import Frond.Proofs.Diagnostic.Report
import Frond.Proofs.Diagnostic.Render
import Frond.Proofs.Arena.Refusal
import Frond.Proofs.Arena.Replay
import Frond.Proofs.Scheduler.InArena

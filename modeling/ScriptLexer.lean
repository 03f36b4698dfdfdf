import ScriptLexer.Lexer
import ScriptLexer.Editor
import ScriptLexer.Files.Change
import ScriptLexer.Main
import ScriptLexer.Proofs.Scan.Run
import ScriptLexer.Proofs.Token.Symbol
import ScriptLexer.Proofs.Scan.Reads
import ScriptLexer.Proofs.Scan.RunOnly
import ScriptLexer.Proofs.Scan.Fit
import ScriptLexer.Proofs.Scan.Walk
import ScriptLexer.Proofs.Scan.Bounds
import ScriptLexer.Proofs.Scan.Coverage
import ScriptLexer.Proofs.Scan.Seam
import ScriptLexer.Proofs.Scan.Concatenation
import ScriptLexer.Proofs.Grammar.Decimal
import ScriptLexer.Proofs.Grammar.Lexeme
import ScriptLexer.Proofs.Cursor.Agreement
import ScriptLexer.Proofs.Cursor.Totality
import ScriptLexer.Proofs.Grammar.Acceptance
import ScriptLexer.Proofs.Scan.Stop
import ScriptLexer.Proofs.Scan.Faithful
import ScriptLexer.Proofs.Grammar.Respacing
import ScriptLexer.Proofs.Scan.Breaks
import ScriptLexer.Proofs.Suite.Case
import ScriptLexer.Proofs.Command.Effects
import ScriptLexer.Proofs.Command.Watch
import ScriptLexer.Proofs.Dump.Lossless
import ScriptLexer.Proofs.Numeral.Recovery
import ScriptLexer.Proofs.Numeral.OtherBases
import ScriptLexer.Proofs.Command.Exits
import ScriptLexer.Proofs.Suite.Rerun
import ScriptLexer.Proofs.Numeral.EveryBase
import ScriptLexer.Proofs.Enclosed.Strings
import ScriptLexer.Proofs.Word.Recovery
import ScriptLexer.Proofs.Symbol.Longest
import ScriptLexer.Proofs.Enclosed.Comments
import ScriptLexer.Proofs.Scan.Order
import ScriptLexer.Proofs.Text.Positions
import ScriptLexer.Proofs.Diagnostic.Geometry
import ScriptLexer.Proofs.Diagnostic.Reports
import ScriptLexer.Proofs.Editor.Publications
import ScriptLexer.Proofs.Suite.Bookkeeping
import ScriptLexer.Proofs.Json.Grammar
import ScriptLexer.Proofs.Json.Sound
import ScriptLexer.Proofs.Json.Complete
import ScriptLexer.Proofs.Suite.Previous

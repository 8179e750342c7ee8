import LoxLexer.Main
import LoxLexer.Scanner
import LoxLexer.Calls
import LoxLexer.Program
import LoxLexer.Settings
import LoxLexer.Proofs.Boundary
import LoxLexer.Proofs.Findings
import LoxLexer.Proofs.Grammar
import LoxLexer.Proofs.MaximalMunch
import LoxLexer.Proofs.LineBreak
import LoxLexer.Proofs.RoundTrip
import LoxLexer.Proofs.PromptLines
import LoxLexer.Proofs.ScriptPrompt
import LoxLexer.Proofs.BoundedRun
import LoxLexer.Proofs.Lines
import LoxLexer.Proofs.Modes
import LoxLexer.Proofs.Cursor
import LoxLexer.Proofs.Requests
import LoxLexer.Proofs.ScanLog
import LoxLexer.Proofs.Programs
import LoxLexer.Proofs.Sessions
import LoxLexer.Proofs.LogLevels
import LoxLexer.Proofs.Dumps
import LoxLexer.Proofs.Continuation
import LoxLexer.Proofs.Magnitudes
import LoxLexer.Proofs.NumberLiterals
import LoxLexer.Proofs.Digits
import LoxLexer.Proofs.Grids
import LoxLexer.Proofs.ShortestText
import LoxLexer.Proofs.Seam
import LoxLexer.Proofs.Unclosed
import LoxLexer.Proofs.Inert
import LoxLexer.Proofs.Equality
import LoxLexer.Proofs.Renaming
import LoxLexer.Proofs.LineEndings
import LoxLexer.Proofs.Calls
import LoxLexer.Proofs.Progress

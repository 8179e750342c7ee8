import LoxLexer.Position
import LoxLexer.LexicalError
/-! The scan of a source: what its pieces amount to, tokens and errors in one order of reading.
Separators amount to nothing, an error stops nothing, and one closing token ends the tokens. -/
namespace LoxLexer

inductive Finding where
  | token (token : Token)
  | error (error : LexicalError)
  deriving DecidableEq, Repr

structure Scan where
  findings : List Finding
  finish : Position
  deriving DecidableEq, Repr

namespace Finding

def token? : Finding → Option Token
  | token t => some t
  | error _ => none

def error? : Finding → Option LexicalError
  | token _ => none
  | error e => some e

end Finding

/-- A token has the line that it starts on. A stray character has its own line, an unclosed string
the last line of the source, where its end was missed. -/
def Placed.finding? (p : Placed) : Option Finding :=
  match p.piece with
  | .stray character => some (.error (.unexpectedCharacter p.start.line character))
  | .unclosed _ =>
    some (.error (.unterminatedString (p.start.after p.piece.text).line p.piece.text))
  | piece => (piece.token? p.start.line).map .token

namespace Scan

def ofText (source : Text) : Scan :=
  ⟨(Position.first.place (Piece.cut source)).filterMap Placed.finding?,
    Position.first.after source⟩

def lexemes (s : Scan) : List Token := s.findings.filterMap Finding.token?

def tokens (s : Scan) : List Token := s.lexemes ++ [Token.eof s.finish.line]

def errors (s : Scan) : List LexicalError := s.findings.filterMap Finding.error?

def diagnostics (s : Scan) : List Diagnostic := s.errors.map LexicalError.diagnostic

end Scan
end LoxLexer

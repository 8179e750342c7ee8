import LoxLexer.Calls
import LoxLexer.Console
/-! The dump of a source: one line for each token, while its diagnostics go to the console. The
source is scanned to its end before the first token is written, so a full output loses no
diagnostic. A line is written part by part; the first part that does not fit ends the dump. -/
namespace LoxLexer

def Token.dumpParts (t : Token) : List Text := t.parts ++ [['\n']]

def Token.dumpLine (t : Token) : Text := t.dumpParts.flatten

def Token.dump (tokens : List Token) : Text := tokens.flatMap Token.dumpLine

def Sink.writeTokens (s : Sink) (tokens : List Token) : Sink × Option Fault :=
  let written := s.writeParts ((tokens.flatMap Token.dumpParts).map Utf8.encode)
  (written.1, if written.2 then none else some .sinkFull)

structure Run where
  out : Sink
  console : Console
  fault : Option Fault
  deriving DecidableEq, Repr

def Run.ofText (source : Text) (out : Sink) (console : Console) : Option Run :=
  (Scanner.tokenize Console.print source console).map fun answer =>
    let written := out.writeTokens answer.tokens
    ⟨written.1, answer.reporter, written.2⟩

end LoxLexer

import LoxLexer.Log
import LoxLexer.Sink
import LoxLexer.Fault
import LoxLexer.Text.Utf8
/-! Diagnostics written to a sink. A diagnostic that did not fit is only logged, and counts as an
error seen all the same. -/
namespace LoxLexer

structure Console where
  sink : Sink
  errorSeen : Bool
  deriving DecidableEq, Repr

inductive Request where
  | print (diagnostic : Diagnostic)
  | forget
  | scan (source : Text)
  deriving DecidableEq, Repr

structure Reply where
  tokens : Option (List Token)
  warnings : List Event
  deriving DecidableEq, Repr

namespace Console

def fresh (sink : Sink) : Console := ⟨sink, false⟩

def forget (c : Console) : Console := { c with errorSeen := false }

def print (c : Console) (d : Diagnostic) : Console :=
  ⟨(c.sink.writeParts (d.parts.map Utf8.encode)).1, true⟩

def warning? (c : Console) (d : Diagnostic) : Option Event :=
  if (c.sink.writeParts (d.parts.map Utf8.encode)).2 then none
  else some (.diagnosticLost d.line Fault.sinkFull.message)

def printAll (c : Console) (ds : List Diagnostic) : Console := ds.foldl print c

def warnings (c : Console) : List Diagnostic → List Event
  | [] => []
  | d :: rest => (c.warning? d).toList ++ (c.print d).warnings rest

def serve (c : Console) : Request → Reply × Console
  | .print d => (⟨none, c.warnings [d]⟩, c.print d)
  | .forget => (⟨none, []⟩, c.forget)
  | .scan source =>
    let scan := Scan.ofText source
    (⟨some scan.tokens, c.warnings scan.diagnostics⟩, c.printAll scan.diagnostics)

def serveAll (c : Console) : List Request → List (Reply × Console)
  | [] => []
  | request :: rest => c.serve request :: (c.serve request).2.serveAll rest

end Console
end LoxLexer

import LoxLexer.Scan
/-! The log of a run: events with a level each, and a filter that is asked about each event. Events and
diagnostics share one stream, in the order in which they arise. -/
namespace LoxLexer

inductive Level where
  | error | warn | info | debug | trace
  deriving DecidableEq, Repr

inductive Limit where
  | off
  | upTo (level : Level)
  deriving DecidableEq, Repr

inductive Event where
  | starting (arguments : Text)
  | scriptRead (path : Text) (bytes : Nat)
  | scanStarted (bytes : Nat)
  | tokenFound (token : Token)
  | errorFound (error : LexicalError)
  | scanFinished (tokens errors lines : Nat)
  | diagnosticLost (line : Nat) (cause : Text)
  deriving DecidableEq, Repr

inductive Entry where
  | event (event : Event)
  | diagnostic (diagnostic : Diagnostic)
  deriving DecidableEq, Repr

structure Filter where
  admits : Event → Bool

namespace Level

def all : List Level := [error, warn, info, debug, trace]

def rank : Level → Nat
  | error => 1 | warn => 2 | info => 3 | debug => 4 | trace => 5

def name : Level → Text
  | error => "ERROR".toList | warn => "WARN".toList | info => "INFO".toList
  | debug => "DEBUG".toList | trace => "TRACE".toList

end Level

namespace Event

def error? : Event → Option LexicalError
  | errorFound error => some error
  | _ => none

def level : Event → Level
  | tokenFound _ => .trace
  | diagnosticLost _ _ => .warn
  | _ => .debug

def message : Event → Text
  | starting _ => "starting".toList
  | scriptRead _ _ => "read script".toList
  | scanStarted _ => "scanning source".toList
  | tokenFound _ => "token".toList
  | errorFound _ => "lexical error".toList
  | scanFinished _ _ _ => "scan finished".toList
  | diagnosticLost _ _ => "could not write diagnostic".toList

def fields : Event → List (Text × Text)
  | starting arguments => [("args".toList, arguments)]
  | scriptRead path bytes => [("path".toList, Text.quoted path), ("bytes".toList, Text.ofNat bytes)]
  | scanStarted bytes => [("bytes".toList, Text.ofNat bytes)]
  | tokenFound token => [("token".toList, token.text), ("line".toList, Text.ofNat token.line)]
  | errorFound error => [("line".toList, Text.ofNat error.line), ("error".toList, error.details)]
  | scanFinished tokens errors lines =>
    [("tokens".toList, Text.ofNat tokens), ("errors".toList, Text.ofNat errors),
     ("lines".toList, Text.ofNat lines)]
  | diagnosticLost line cause => [("err".toList, cause), ("line".toList, Text.ofNat line)]

def text (e : Event) : Text :=
  e.level.name ++ ' ' :: e.message ++
    e.fields.flatMap (fun field => ' ' :: field.1 ++ '=' :: field.2) ++ ['\n']

end Event

namespace Limit

def all : List Limit := off :: Level.all.map upTo

def rank : Limit → Nat
  | off => 0
  | upTo level => level.rank

def word : Limit → Text
  | off => "off".toList
  | upTo level => level.name.map Char.toLower

def filter (limit : Limit) : Filter := ⟨fun e => e.level.rank ≤ limit.rank⟩

end Limit

namespace Entry

def event? : Entry → Option Event
  | event e => some e
  | diagnostic _ => none

def diagnostic? : Entry → Option Diagnostic
  | event _ => none
  | diagnostic d => some d

def text : Entry → Text
  | event e => e.text
  | diagnostic d => d.text

def passes (f : Filter) : Entry → Bool
  | event e => f.admits e
  | diagnostic _ => true

end Entry

/-- An error is logged before its diagnostic is written. -/
def Finding.entries : Finding → List Entry
  | .token t => [.event (.tokenFound t)]
  | .error e => [.event (.errorFound e), .diagnostic e.diagnostic]

namespace Scan

def entries (s : Scan) : List Entry :=
  .event (.scanStarted s.finish.offset) :: s.findings.flatMap Finding.entries ++
    [.event (.scanFinished s.tokens.length s.errors.length s.finish.line)]

def events (s : Scan) : List Event := s.entries.filterMap Entry.event?

end Scan
end LoxLexer

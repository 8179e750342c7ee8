import LoxLexer.Command
import LoxLexer.Scanner
/-! The program at work: what it has written so far, and whether it has reported an error since it was last
told to forget. Diagnostics and the log go to one place, in the order in which they arise; the log's filter is
asked about an event when it arises. Where a scanner has no answer, the program has none. -/
namespace LoxLexer

structure Program where
  out : Text
  err : List Entry
  errorSeen : Bool
  deriving DecidableEq, Repr

namespace Program

variable (filter : Filter)

def fresh : Program := ⟨[], [], false⟩

def put (p : Program) (text : Text) : Program := { p with out := p.out ++ text }

def log (p : Program) (e : Event) : Program :=
  if filter.admits e then { p with err := p.err ++ [.event e] } else p

def report (p : Program) (d : Diagnostic) : Program :=
  { p with err := p.err ++ [.diagnostic d], errorSeen := true }

def note (p : Program) : Entry → Program
  | .event e => p.log filter e
  | .diagnostic d => p.report d

def flushed (p : Program) : Program := { p with out := [], err := [] }

def forget (p : Program) : Program := { p with errorSeen := false }

def dump (p : Program) (source : Text) : Option Program :=
  (Scanner.fresh source).scanTokens.map fun s => (s.entries.foldl (note filter) p).put (Token.dump s.tokens)

def done (p : Program) (exit : Nat) : Outcome := ⟨exit, p.out, p.err, none⟩

def failed (p : Program) (fault : Fault) : Outcome := ⟨Outcome.exitFault, p.out, p.err, some fault⟩

def runScript (p : Program) (path : Text) : Except Fault Bytes → Option Outcome
  | .error fault => some (p.failed fault)
  | .ok bytes =>
    match Utf8.decode bytes with
    | none => some (p.failed .notText)
    | some source =>
      ((p.log filter (.scriptRead path bytes.length)).dump filter source).map fun p =>
        p.done (if p.errorSeen then Outcome.exitErrors else 0)

/-- What is read next at the prompt ends the program or lets it go on. Each line is a program of its own, so
what the one before reported is forgotten. -/
def turn (p : Program) : Option (Except Fault Text) → Option (Except Outcome Program)
  | none => some (.error (p.done 0))
  | some (.error fault) => some (.error (p.failed fault))
  | some (.ok line) => (p.dump filter line).map fun p => .ok (p.forget.put Command.sign)

theorem turnReads {p next : Program} {result : Option (Except Fault Text)}
    (goes : p.turn filter result = some (.ok next)) : result.isSome := by
  cases result with
  | none => simp [turn] at goes
  | some result => rfl

def turns (p : Program) (prompt : Prompt) : Option Outcome :=
  match _turned : p.turn filter prompt.next.1 with
  | none => none
  | some (.error outcome) => some outcome
  | some (.ok p) => p.turns prompt.next.2
termination_by Part.extent prompt.parts
decreasing_by exact Prompt.nextShrinks prompt (turnReads filter _turned)

def opened (arguments : List Text) (read : Text → Except Fault Bytes) : Option (Except Outcome Program) :=
  let p := fresh.note filter (Command.starting arguments)
  match Command.ofArguments arguments with
  | .tooMany count => some (.error ((p.put (Command.usage count)).done Outcome.exitUsage))
  | .script path => (p.runScript filter path (read path)).map .error
  | .prompt => some (.ok ((p.put Command.banner).put Command.sign))

def resume (prompt : Prompt) : Except Outcome Program → Option Outcome
  | .error outcome => some outcome
  | .ok p => p.turns filter prompt

def run (folder : Folder) (input : List Part) (arguments : List Text) : Option Outcome :=
  (opened filter arguments folder.read).bind (resume filter (Prompt.ofParts input))

end Program
end LoxLexer

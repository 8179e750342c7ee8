import LoxLexer.Dump
import LoxLexer.Prompt
import LoxLexer.Folder
/-! The command line: one script, a prompt when nothing is named, and a complaint when too much is. A run comes
to what it writes, how it ends, and the entries among which a log chooses. -/
namespace LoxLexer

inductive Command where
  | tooMany (count : Nat)
  | script (path : Text)
  | prompt
  deriving DecidableEq, Repr

structure Outcome where
  exit : Nat
  out : Text
  entries : List Entry
  fault : Option Fault
  deriving DecidableEq, Repr

structure Turn where
  out : Text
  entries : List Entry
  deriving DecidableEq, Repr

namespace Outcome

def exitFault : Nat := 1

def exitUsage : Nat := 64

def exitErrors : Nat := 69

def shown (o : Outcome) (f : Filter) : List Entry := o.entries.filter (Entry.passes f)

end Outcome

namespace Command

def programName : Text := "lox-scan".toList

def ofArguments : List Text → Command
  | [] => prompt
  | [path] => script path
  | arguments => tooMany arguments.length

def starting (arguments : List Text) : Entry :=
  .event (.starting (Text.joinWords (programName :: arguments)))

def usage (count : Nat) : Text :=
  "Too many arguments received (".toList ++ Text.ofNat count ++ ")\nUsage: lox-scan [script]\n".toList

def banner : Text := "Welcome to lox-scan.\n".toList

def sign : Text := "> ".toList

def turn (line : Text) : Turn :=
  let scan := Scan.ofText line
  ⟨Token.dump scan.tokens ++ sign, scan.entries⟩

def runScript (path : Text) : Except Fault Bytes → Outcome
  | .error fault => ⟨Outcome.exitFault, [], [], some fault⟩
  | .ok bytes =>
    match Utf8.decode bytes with
    | none => ⟨Outcome.exitFault, [], [], some .notText⟩
    | some source =>
      let scan := Scan.ofText source
      ⟨if scan.errors = [] then 0 else Outcome.exitErrors, Token.dump scan.tokens,
        .event (.scriptRead path bytes.length) :: scan.entries, none⟩

def session : List (Except Fault Text) → Outcome
  | [] => ⟨0, [], [], none⟩
  | .error fault :: _ => ⟨Outcome.exitFault, [], [], some fault⟩
  | .ok line :: rest =>
    let later := session rest
    { later with
      out := (turn line).out ++ later.out
      entries := (turn line).entries ++ later.entries }

def runPrompt (input : Bytes) : Outcome :=
  let lines := session (Prompt.ofParts [.chunk input]).all
  { lines with out := banner ++ sign ++ lines.out }

def run (folder : Folder) (input : Bytes) (arguments : List Text) : Outcome :=
  let outcome : Outcome := match ofArguments arguments with
    | tooMany count => ⟨Outcome.exitUsage, usage count, [], none⟩
    | script path => runScript path (folder.read path)
    | prompt => runPrompt input
  { outcome with entries := starting arguments :: outcome.entries }

end Command
end LoxLexer

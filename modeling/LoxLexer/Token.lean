import LoxLexer.Token.Kind
import LoxLexer.Double.Shortest
/-! Tokens: a kind, the characters that were read, the value they denote if the kind has one, and
the line of the first of them. -/
namespace LoxLexer

inductive Literal where
  | string (text : Text)
  | number (value : Double)
  deriving DecidableEq, Repr

structure Token where
  kind : Kind
  lexeme : Text
  literal : Option Literal
  line : Nat
  deriving DecidableEq, Repr

namespace Literal

def text : Literal → Text
  | string text => text
  | number value => value.text

def equal : Literal → Literal → Bool
  | string a, string b => a == b
  | number a, number b => a.equal b
  | _, _ => false

def equalOption : Option Literal → Option Literal → Bool
  | none, none => true
  | some a, some b => a.equal b
  | _, _ => false

end Literal

namespace Token

def eof (line : Nat) : Token := ⟨.eof, [], none, line⟩

def parts (t : Token) : List Text :=
  [t.kind.name, [' '], t.lexeme, [' '], t.literal.elim [] Literal.text]

def text (t : Token) : Text := t.parts.flatten

def equal (a b : Token) : Bool :=
  a.kind == b.kind && a.lexeme == b.lexeme && Literal.equalOption a.literal b.literal &&
    a.line == b.line

end Token
end LoxLexer

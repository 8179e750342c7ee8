import LoxLexer.Text.Quoted
/-! What can be wrong with a source, and the line of text that tells its writer. -/
namespace LoxLexer

inductive LexicalError where
  | unexpectedCharacter (line : Nat) (character : Char)
  | unterminatedString (line : Nat) (start : Text)
  deriving DecidableEq, Repr

structure Diagnostic where
  line : Nat
  message : Text
  deriving DecidableEq, Repr

namespace LexicalError

def line : LexicalError → Nat
  | unexpectedCharacter line _ => line
  | unterminatedString line _ => line

def message : LexicalError → Text
  | unexpectedCharacter _ _ => "Unexpected character.".toList
  | unterminatedString _ _ => "Unterminated string.".toList

def diagnostic (e : LexicalError) : Diagnostic := ⟨e.line, e.message⟩

def details : LexicalError → Text
  | unexpectedCharacter line character =>
    "UnexpectedCharacter \x7b line: ".toList ++ Text.ofNat line ++
      ", character: ".toList ++ Text.quotedChar character ++ " \x7d".toList
  | unterminatedString line start =>
    "UnterminatedString \x7b line: ".toList ++ Text.ofNat line ++
      ", string_start: ".toList ++ Text.quoted start ++ " \x7d".toList

end LexicalError

def Diagnostic.parts (d : Diagnostic) : List Text :=
  ["[line ".toList, Text.ofNat d.line, "] Error: ".toList, d.message, ['\n']]

def Diagnostic.text (d : Diagnostic) : Text := d.parts.flatten

end LoxLexer

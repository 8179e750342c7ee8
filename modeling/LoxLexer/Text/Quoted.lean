import LoxLexer.Text.DefaultIgnorable
import LoxLexer.Text.GraphemeExtend
import LoxLexer.Text.Inkless
/-! Text between quotation marks, for a reader of a log: NUL, tab, carriage return, line feed and
the backslash have two-character escapes, the mark itself is escaped inside its own kind of quote,
and a character that would not be seen as itself is written by its code point. -/
namespace LoxLexer.Text

def isVisible (c : Char) : Bool :=
  !inRanges graphemeExtend c && !inRanges defaultIgnorable c && !inRanges inkless c

def codePoint (c : Char) : Text := ['\\', 'u', '{'] ++ Nat.toDigits 16 c.toNat ++ ['}']

def escape (mark c : Char) : Text :=
  if c = '\x00' then ['\\', '0']
  else if c = '\t' then ['\\', 't']
  else if c = '\r' then ['\\', 'r']
  else if c = '\n' then ['\\', 'n']
  else if c = '\\' || c = mark then ['\\', c]
  else if isVisible c then [c]
  else codePoint c

def quotedChar (c : Char) : Text := '\'' :: escape '\'' c ++ ['\'']

def quoted (text : Text) : Text := '"' :: text.flatMap (escape '"') ++ ['"']

end LoxLexer.Text

import LoxLexer.Text
/-! The Unicode property White_Space, and trimming by it. It is wider than the blanks between
lexemes: a prompt line is compared with the leaving command after this trimming. -/
namespace LoxLexer.Text

def whiteSpace : List (Nat × Nat) :=
  [(0x09, 0x0d), (0x20, 0x20), (0x85, 0x85), (0xa0, 0xa0), (0x1680, 0x1680), (0x2000, 0x200a),
   (0x2028, 0x2029), (0x202f, 0x202f), (0x205f, 0x205f), (0x3000, 0x3000)]

def isWhite (c : Char) : Bool := inRanges whiteSpace c

def trimFront (text : Text) : Text := text.dropWhile isWhite

def trimBack (text : Text) : Text := (text.reverse.dropWhile isWhite).reverse

def trim (text : Text) : Text := trimBack (trimFront text)

end LoxLexer.Text

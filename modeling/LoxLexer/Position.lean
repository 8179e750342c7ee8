import LoxLexer.Piece
/-! Where pieces stand: the byte offset of the first character and the line it is on. Lines count
from one. A position is moved by whole texts only, so it always stands between two characters. -/
namespace LoxLexer

structure Position where
  offset : Nat
  line : Nat
  deriving DecidableEq, Repr

structure Placed where
  piece : Piece
  start : Position
  deriving DecidableEq, Repr

namespace Position

def first : Position := ⟨0, 1⟩

def after (p : Position) (text : Text) : Position :=
  ⟨p.offset + text.byteLength, p.line + text.lineFeeds⟩

theorem afterEmpty (p : Position) : p.after [] = p := rfl

theorem afterAppend (p : Position) (a b : Text) : p.after (a ++ b) = (p.after a).after b := by
  simp [after, Text.byteLengthAppend, Text.lineFeedsAppend, Nat.add_assoc]

def place (p : Position) : List Piece → List Placed
  | [] => []
  | piece :: rest => ⟨piece, p⟩ :: place (p.after piece.text) rest

theorem placePieces (p : Position) (pieces : List Piece) :
    (p.place pieces).map Placed.piece = pieces := by
  induction pieces generalizing p with
  | nil => rfl
  | cons piece rest ih => simp [place, ih]

theorem placeAppend (p : Position) (a b : List Piece) :
    p.place (a ++ b) = p.place a ++ (p.after (Piece.joined a)).place b := by
  induction a generalizing p with
  | nil => simp [place, Piece.joined, afterEmpty]
  | cons piece rest ih =>
    have joined : Piece.joined (piece :: rest) = piece.text ++ Piece.joined rest := rfl
    simp [place, ih, joined, afterAppend]

end Position
end LoxLexer

/-! Source text as the list of its characters, with the two measures that positions count:
bytes in UTF-8 and line feeds. Both are additive, so a position moves piece by piece. -/
namespace LoxLexer

abbrev Text := List Char
abbrev Bytes := List UInt8

namespace Text

def byteLength (text : Text) : Nat := text.foldr (fun c bytes => c.utf8Size + bytes) 0

/-- Only the line feed ends a line; a carriage return or U+2028 does not. -/
def lineFeeds (text : Text) : Nat := text.count '\n'

def ofNat (n : Nat) : Text := Nat.toDigits 10 n

def joinWords : List Text → Text
  | [] => []
  | [word] => word
  | word :: rest => word ++ ' ' :: joinWords rest

def lines : Text → List Text
  | [] => []
  | '\n' :: rest => [] :: lines rest
  | '\r' :: '\n' :: rest => [] :: lines rest
  | c :: rest =>
    match lines rest with
    | [] => [[c]]
    | line :: more => (c :: line) :: more

/-- The two sides of a byte offset; there are none where it does not stand between two characters. -/
def sidesOf : Nat → Text → Option (Text × Text)
  | 0, text => some ([], text)
  | _ + 1, [] => none
  | n + 1, c :: rest =>
    if c.utf8Size ≤ n + 1 then
      (sidesOf (n + 1 - c.utf8Size) rest).map fun sides => (c :: sides.1, sides.2)
    else none

def behind (text : Text) (offset : Nat) : Option Text := (sidesOf offset text).map Prod.snd

def slice (text : Text) (first last : Nat) : Option Text :=
  if first ≤ last then (behind text first).bind fun rest => (sidesOf (last - first) rest).map Prod.fst
  else none

def inRanges (ranges : List (Nat × Nat)) (c : Char) : Bool :=
  ranges.any fun range => range.1 ≤ c.toNat && c.toNat ≤ range.2

theorem byteLengthAppend (a b : Text) : byteLength (a ++ b) = byteLength a + byteLength b := by
  induction a with
  | nil => simp [byteLength]
  | cons c rest ih =>
    simp only [byteLength, List.cons_append, List.foldr_cons] at *
    omega

theorem lineFeedsAppend (a b : Text) : lineFeeds (a ++ b) = lineFeeds a + lineFeeds b := by
  simp [lineFeeds]

theorem lineFeedsBound (text : Text) : lineFeeds text ≤ byteLength text := by
  induction text with
  | nil => simp [lineFeeds, byteLength]
  | cons c rest ih =>
    have size := c.utf8Size_pos
    simp only [lineFeeds, byteLength, List.count_cons, List.foldr_cons] at *
    split <;> omega

theorem sidesExact (a b : Text) : sidesOf (byteLength a) (a ++ b) = some (a, b) := by
  induction a with
  | nil => simp [byteLength, sidesOf]
  | cons c a ih =>
    have size := c.utf8Size_pos
    have more : byteLength (c :: a) = c.utf8Size - 1 + byteLength a + 1 := by
      simp only [byteLength, List.foldr_cons]
      omega
    have fits : c.utf8Size ≤ c.utf8Size - 1 + byteLength a + 1 := by omega
    have left : c.utf8Size - 1 + byteLength a + 1 - c.utf8Size = byteLength a := by omega
    rw [more, List.cons_append, sidesOf, if_pos fits, left, ih, Option.map_some]

theorem behindExact (a b : Text) : behind (a ++ b) (byteLength a) = some b := by
  rw [behind, sidesExact, Option.map_some]

theorem sliceExact (a b c : Text) : slice (a ++ (b ++ c)) (byteLength a) (byteLength a + byteLength b) = some b := by
  rw [slice, if_pos (Nat.le_add_right _ _), behindExact, Option.bind_some, Nat.add_sub_cancel_left, sidesExact,
    Option.map_some]

end Text
end LoxLexer

import LoxLexer.Token
import LoxLexer.Double.Nearest
/-! Source text cut into pieces: lexemes, what separates them, and what is neither. The text of a
piece is part of what the piece is, so the pieces of a source put together are the source. -/
namespace LoxLexer

inductive Piece where
  | mark (mark : Mark)
  | word (letters : Text)
  | number (numeral : Numeral)
  | string (body : Text)
  | blank (space : Char)
  | lineFeed
  | comment (body : Text)
  | stray (character : Char)
  | unclosed (body : Text)
  deriving DecidableEq, Repr

def isBlank (c : Char) : Bool := c == ' ' || c == '\t' || c == '\r'

def isWordStart (c : Char) : Bool := c.isAlpha || c == '_'

def isWordPart (c : Char) : Bool := c.isDigit || isWordStart c

namespace Piece

def text : Piece → Text
  | mark m => m.spelling
  | word letters => letters
  | number numeral => numeral.text
  | string body => '"' :: body ++ ['"']
  | blank space => [space]
  | lineFeed => ['\n']
  | comment body => '/' :: '/' :: body
  | stray character => [character]
  | unclosed body => '"' :: body

def joined (pieces : List Piece) : Text := pieces.flatMap text

def kind? : Piece → Option Kind
  | mark m => some (.mark m)
  | word letters => some (.ofWord letters)
  | number _ => some .number
  | string _ => some .string
  | _ => none

def literal? : Piece → Option Literal
  | number numeral => some (.number (.ofDecimal numeral.value))
  | string body => some (.string body)
  | _ => none

def token? (line : Nat) (p : Piece) : Option Token :=
  p.kind?.map fun kind => ⟨kind, p.text, p.literal?, line⟩

def symbol (c : Char) (cs : Text) : Piece × Text :=
  match Mark.ofChar? c with
  | none => (stray c, cs)
  | some short =>
    match cs, short.withEqual? with
    | '=' :: rest, some long => (mark long, rest)
    | _, _ => (mark short, cs)

def quotation (cs : Text) : Piece × Text :=
  match cs.dropWhile (· != '"') with
  | [] => (unclosed cs, [])
  | _ :: rest => (string (cs.takeWhile (· != '"')), rest)

def numeral (c : Char) (cs : Text) : Piece × Text :=
  let whole := c :: cs.takeWhile Char.isDigit
  match cs.dropWhile Char.isDigit with
  | '.' :: d :: rest =>
    if d.isDigit then
      (number ⟨whole, d :: rest.takeWhile Char.isDigit⟩, rest.dropWhile Char.isDigit)
    else (number ⟨whole, []⟩, '.' :: d :: rest)
  | rest => (number ⟨whole, []⟩, rest)

def first (c : Char) (cs : Text) : Piece × Text :=
  if c = '\n' then (lineFeed, cs)
  else if isBlank c then (blank c, cs)
  else if c = '"' then quotation cs
  else if c.isDigit then numeral c cs
  else if isWordStart c then
    (word (c :: cs.takeWhile isWordPart), cs.dropWhile isWordPart)
  else
    match c, cs with
    | '/', '/' :: rest => (comment (rest.takeWhile (· != '\n')), rest.dropWhile (· != '\n'))
    | _, _ => symbol c cs

theorem symbolText (c : Char) (cs : Text) :
    (symbol c cs).1.text ++ (symbol c cs).2 = c :: cs := by
  unfold symbol
  split
  · rfl
  · rename_i short spelt
    have one := Mark.ofCharExact.mp spelt
    split
    · rename_i rest long grows
      simp [text, Mark.withEqualSpelling grows, one]
    · simp [text, one]

theorem quotationText (cs : Text) :
    (quotation cs).1.text ++ (quotation cs).2 = '"' :: cs := by
  have split := List.takeWhile_append_dropWhile (p := (· != '"')) (l := cs)
  unfold quotation
  split
  · simp [text]
  · rename_i c rest left
    have close : c = '"' := by
      have stop := List.head?_dropWhile_not (p := (· != '"')) cs
      simpa [left] using stop
    subst close
    rw [left] at split
    simp [text, split]

theorem numeralText (c : Char) (cs : Text) :
    (numeral c cs).1.text ++ (numeral c cs).2 = c :: cs := by
  have split := List.takeWhile_append_dropWhile (p := Char.isDigit) (l := cs)
  unfold numeral
  dsimp only
  split
  · rename_i d rest left
    rw [left] at split
    split
    · have more := List.takeWhile_append_dropWhile (p := Char.isDigit) (l := rest)
      simp [text, Numeral.text, more, split]
    · simp [text, Numeral.text, split]
  · simp [text, Numeral.text, split]

theorem firstText (c : Char) (cs : Text) : (first c cs).1.text ++ (first c cs).2 = c :: cs := by
  unfold first
  split
  · simp_all [text]
  split
  · simp [text]
  split
  · simp_all [quotationText]
  split
  · exact numeralText c cs
  split
  · simp [text, List.takeWhile_append_dropWhile]
  split
  · simp [text, List.takeWhile_append_dropWhile]
  · exact symbolText c cs

theorem dropWhileBound (keep : Char → Bool) (cs : Text) : (cs.dropWhile keep).length ≤ cs.length :=
  (List.dropWhile_sublist keep).length_le

theorem firstBound (c : Char) (cs : Text) : (first c cs).2.length ≤ cs.length := by
  unfold first
  split
  · exact Nat.le_refl _
  split
  · exact Nat.le_refl _
  split
  · have bound := dropWhileBound (· != '"') cs
    unfold quotation
    split
    · exact Nat.zero_le _
    · simp_all only [List.length_cons]
      omega
  split
  · have bound := dropWhileBound Char.isDigit cs
    unfold numeral
    dsimp only
    split
    · rename_i d rest left
      have more := dropWhileBound Char.isDigit rest
      rw [left] at bound
      simp only [List.length_cons] at bound
      split <;> simp only [List.length_cons] <;> omega
    · exact bound
  split
  · exact dropWhileBound isWordPart cs
  split
  · rename_i rest _ _ _ _ _
    have bound := dropWhileBound (· != '\n') rest
    simp only [List.length_cons]
    omega
  · unfold symbol
    split
    · exact Nat.le_refl _
    split <;> simp

def cut : Text → List Piece
  | [] => []
  | c :: cs =>
    let step := first c cs
    step.1 :: cut step.2
termination_by text => text.length
decreasing_by exact Nat.lt_succ_of_le (firstBound c cs)

theorem cutEmpty : cut [] = [] := by rw [cut]

theorem cutStep (c : Char) (cs : Text) : cut (c :: cs) = (first c cs).1 :: cut (first c cs).2 := by
  rw [cut]

theorem joinedCut (source : Text) : joined (cut source) = source := by
  fun_induction cut source with
  | case1 => rfl
  | case2 c cs step ih =>
    have whole := firstText c cs
    simp only [joined, List.flatMap_cons] at ih ⊢
    rw [ih]
    exact whole

end Piece
end LoxLexer

import LoxLexer.Proofs.Lines
/-! Places between pieces. A source is cut there as its two sides are cut alone. What stands behind such a place
may be exchanged for any text that the pieces in front of it would end before as well. -/
namespace LoxLexer

theorem haltsAlike {keep : Char → Bool} {between back other : Text} {c d : Char} (same : keep c = keep d)
    (halts : Halts keep (between ++ c :: back)) : Halts keep (between ++ d :: other) := by
  cases between with
  | nil => exact haltsCons.mpr (same.symm.trans (haltsCons.mp halts))
  | cons e between => exact haltsCons.mpr (haltsCons.mp halts)

namespace Piece

def borders : List (Char → Bool) := [(· == '='), (· == '/'), isWordPart, Char.isDigit, (· != '\n')]

def Exchanges (one other : Text) : Prop :=
  ∀ (p : Piece) (between : Text), p.Stands (between ++ one) → p.Stands (between ++ other)

def Seam (front back : Text) : Prop := cut (front ++ back) = cut front ++ cut back

/- Only a number asks for a second character, and only behind a point. -/
theorem exchangesAlike {c d : Char} (alike : borders.map (· c) = borders.map (· d)) (notPoint : d ≠ '.')
    (back other : Text) : Exchanges (c :: back) (d :: other) := by
  rintro p between ⟨shape, ends⟩
  refine ⟨shape, ?_⟩
  simp only [borders, List.map_cons, List.cons.injEq] at alike
  obtain ⟨equal, slash, part, digit, feed, _⟩ := alike
  cases p with
  | mark m => exact ⟨fun grows => haltsAlike equal (ends.1 grows), fun same => haltsAlike slash (ends.2 same)⟩
  | word letters => exact haltsAlike part ends
  | comment body => exact haltsAlike feed ends
  | unclosed body => exact absurd ends (List.append_ne_nil_of_right_ne_nil between (List.cons_ne_nil c back))
  | number n =>
    refine ⟨haltsAlike digit ends.1, fun whole e more same => ?_⟩
    match between with
    | [] => exact absurd (List.cons.inj same).1 notPoint
    | [point] =>
      obtain ⟨rfl, next⟩ := List.cons.inj same
      rw [← (List.cons.inj next).1, ← digit]
      exact ends.2 whole c back rfl
    | point :: f :: between =>
      obtain ⟨rfl, next⟩ := List.cons.inj same
      rw [← (List.cons.inj next).1]
      exact ends.2 whole f (between ++ c :: back) rfl
  | _ => trivial

theorem cutHead {source : Text} {p : Piece} {pieces : List Piece} (cuts : cut source = p :: pieces) :
    ∃ rest, source = p.text ++ rest ∧ p.Stands rest ∧ cut rest = pieces := by
  cases source with
  | nil =>
    rw [cutEmpty] at cuts
    contradiction
  | cons c cs =>
    rw [cutStep] at cuts
    obtain ⟨rfl, more⟩ := List.cons.inj cuts
    exact ⟨_, (firstText c cs).symm, firstStands c cs, more⟩

theorem seamExchange {front one other : Text} (seam : Seam front one) (exchanges : Exchanges one other) :
    Seam front other := by
  induction front using pieceInduction with
  | nothing => rw [Seam, cutEmpty, List.nil_append, List.nil_append]
  | piece p rest stands ih =>
    rw [Seam, cutStands stands, List.append_assoc] at seam
    obtain ⟨behind, text, there, more⟩ := cutHead seam
    obtain rfl := List.append_cancel_left text
    rw [Seam, cutStands stands, List.append_assoc, cutStands (exchanges p rest there), ih more, List.cons_append]

end Piece

namespace Site

theorem behindAppend (before : Text) (a b : List Piece) :
    behind before (a ++ b) = behind before a ++ behind (before ++ Piece.joined a) b := by
  induction a generalizing before with
  | nil => simp [behind, Piece.joined]
  | cons piece rest ih =>
    have joined : Piece.joined (piece :: rest) = piece.text ++ Piece.joined rest := rfl
    rw [joined, ← List.append_assoc, List.cons_append, behind, ih]
    rfl

theorem behindSplit {before : Text} {pieces : List Piece} {front back : List Site} {s : Site}
    (sites : behind before pieces = front ++ s :: back) :
    ∃ first last, pieces = first ++ s.piece :: last ∧ front = behind before first ∧
      s.before = before ++ Piece.joined first ∧ back = behind (s.before ++ s.piece.text) last := by
  induction front generalizing before pieces with
  | nil =>
    cases pieces with
    | nil => contradiction
    | cons piece rest =>
      obtain ⟨rfl, rfl⟩ := List.cons.inj sites
      exact ⟨[], rest, rfl, rfl, (List.append_nil before).symm, rfl⟩
  | cons other front ih =>
    cases pieces with
    | nil => contradiction
    | cons piece rest =>
      obtain ⟨rfl, more⟩ := List.cons.inj sites
      obtain ⟨first, last, rfl, rfl, text, rfl⟩ := ih more
      refine ⟨piece :: first, last, rfl, rfl, ?_, rfl⟩
      rw [text, List.append_assoc]
      rfl

theorem seam {source : Text} {front back : List Site} {s : Site} (sites : ofText source = front ++ s :: back) :
    ∃ after, source = s.before ++ (s.piece.text ++ after) ∧ s.piece.Stands after ∧
      Piece.Seam s.before (s.piece.text ++ after) ∧ front = ofText s.before ∧
      back = behind (s.before ++ s.piece.text) (Piece.cut after) := by
  obtain ⟨first, last, cuts, rfl, text, rfl⟩ := behindSplit sites
  rw [List.nil_append] at text
  obtain ⟨whole, left, right⟩ := Piece.cutSides cuts
  obtain ⟨after, joined, stands, rfl⟩ := Piece.cutHead right
  rw [← text, joined] at whole
  rw [← text] at left
  refine ⟨after, whole, stands, ?_, by rw [ofText, left], rfl⟩
  rw [Piece.Seam, ← whole, cuts, left, Piece.cutStands stands]

theorem ofFront {front back : Text} (seam : Piece.Seam front back) :
    ofText (front ++ back) = ofText front ++ behind front (Piece.cut back) := by
  rw [ofText, seam, behindAppend, Piece.joinedCut]
  rfl

theorem ofSeam {before one rest : Text} {p : Piece} (seam : Piece.Seam before one) (stands : p.Stands rest)
    (exchanges : Piece.Exchanges one (p.text ++ rest)) : ofText (before ++ (p.text ++ rest)) =
      ofText before ++ ⟨before, p⟩ :: behind (before ++ p.text) (Piece.cut rest) := by
  rw [ofFront (Piece.seamExchange seam exchanges), Piece.cutStands stands]
  rfl

theorem sameLines {β : Type} {view : Site → Option β} {a b : Text}
    (blind : ∀ (p : Piece) (a b : Text), a.count '\n' = b.count '\n' → view ⟨a, p⟩ = view ⟨b, p⟩)
    (same : a.count '\n' = b.count '\n') (pieces : List Piece) :
    (behind a pieces).filterMap view = (behind b pieces).filterMap view := by
  induction pieces generalizing a b with
  | nil => rfl
  | cons piece rest ih =>
    have further : (a ++ piece.text).count '\n' = (b ++ piece.text).count '\n' := by
      rw [List.count_append, List.count_append, same]
    rw [behind, behind, List.filterMap_cons, List.filterMap_cons, blind piece a b same, ih further]

theorem tokenLines (p : Piece) (a b : Text) (same : a.count '\n' = b.count '\n') :
    token? ⟨a, p⟩ = token? ⟨b, p⟩ := by
  rw [token?, token?, same]

theorem errorLines {one other : Text} (whole : one.count '\n' = other.count '\n') (p : Piece) (a b : Text)
    (same : a.count '\n' = b.count '\n') : error? one ⟨a, p⟩ = error? other ⟨b, p⟩ := by
  cases p <;> simp only [error?, whole, same]

end Site
end LoxLexer

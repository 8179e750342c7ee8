import LoxLexer.Proofs.Grammar
import LoxLexer.Proofs.Cursor
/-! Maximal munch. A source is cut into the longest lexemes that the grammar allows at each place; a
text with no lexeme in front loses one character, or all it has if that character is a quotation mark.
There is one such cut, and its tokens and complaints are those of the scan. -/
namespace LoxLexer

structure Slice where
  role : Role
  text : Text
  deriving DecidableEq, Repr

inductive Munch : Text → List Slice → Prop where
  | nothing : Munch [] []
  | lexeme {role : Role} {text rest : Text} {slices : List Slice} (member : role.Lexeme text)
      (longest : ∀ (other : Role) (longer : Text), other.Lexeme longer → longer <+: text ++ rest →
        longer.length ≤ text.length)
      (more : Munch rest slices) : Munch (text ++ rest) (⟨role, text⟩ :: slices)
  | stray {c : Char} {rest : Text} {slices : List Slice} (notQuote : c ≠ '"')
      (none : ∀ (role : Role) (text : Text), role.Lexeme text → ¬ text <+: c :: rest)
      (more : Munch rest slices) : Munch (c :: rest) (⟨.stray, [c]⟩ :: slices)
  | unclosed {rest : Text}
      (none : ∀ (role : Role) (text : Text), role.Lexeme text → ¬ text <+: '"' :: rest) :
      Munch ('"' :: rest) [⟨.unclosed, '"' :: rest⟩]

namespace Slice

def token? (s : Slice) : Option (Kind × Text) :=
  match s.role with
  | .token kind => some (kind, s.text)
  | _ => none

def complaint? (s : Slice) : Option Text :=
  match s.role with
  | .stray => some "Unexpected character.".toList
  | .unclosed => some "Unterminated string.".toList
  | _ => none

end Slice

namespace Piece

def slice (p : Piece) : Slice := ⟨p.role, p.text⟩

theorem textInjective {p q : Piece} (left : p.WellFormed) (right : q.WellFormed)
    (same : p.text = q.text) : p = q := by
  have cuts := congrArg cut same
  rw [cutAlone left, cutAlone right] at cuts
  exact (List.cons.inj cuts).1

theorem faultPrefix {p : Piece} {front : Text} (shape : p.WellFormed) (fault : p.IsFault)
    (some : front ≠ []) (begins : front <+: p.text) :
    ∃ q : Piece, q.WellFormed ∧ q.IsFault ∧ q.text = front := by
  cases front with
  | nil => exact absurd rfl some
  | cons c front =>
    cases p with
    | stray character =>
      obtain ⟨same, begins⟩ := List.cons_prefix_cons.mp begins
      have empty := List.prefix_nil.mp begins
      exact ⟨stray character, shape, trivial, by rw [same, empty]; rfl⟩
    | unclosed body =>
      obtain ⟨same, begins⟩ := List.cons_prefix_cons.mp begins
      have inside : '"' ∉ front := fun member => shape (begins.subset member)
      exact ⟨unclosed front, inside, trivial, by rw [same]; rfl⟩
    | _ => exact absurd fault id

theorem noLongerLexeme {p : Piece} {rest : Text} (stands : p.Stands rest) {role : Role} {text : Text}
    (member : role.Lexeme text) (begins : text <+: p.text ++ rest) :
    ¬ p.IsFault ∧ text.length ≤ p.text.length := by
  obtain ⟨q, shape, spelt, _, sound⟩ := ofLexeme member
  subst spelt
  obtain ⟨behind, whole⟩ := begins
  rcases List.append_eq_append_iff.mp whole with ⟨left, inside, _⟩ | ⟨excess, beyond, tail⟩
  · refine ⟨fun fault => ?_, by simp [inside]⟩
    obtain ⟨c, cs, starts⟩ := textNonempty shape
    obtain ⟨other, otherShape, otherFault, same⟩ :=
      faultPrefix stands.wellFormed fault (by simp [starts]) ⟨left, inside.symm⟩
    exact sound (textInjective otherShape shape same ▸ otherFault)
  · -- a lexeme that goes on behind the piece would itself be cut in two there
    subst tail
    have cuts := cutStands (standsPrefix stands)
    rw [← beyond, cutAlone shape] at cuts
    obtain ⟨same, _⟩ := List.cons.inj cuts
    exact ⟨same ▸ sound, by rw [same]⟩

theorem faultCases {p : Piece} {rest : Text} (stands : p.Stands rest) (fault : p.IsFault) :
    (∃ c, c ≠ '"' ∧ p = stray c) ∨ ∃ body, p = unclosed body ∧ rest = [] := by
  obtain ⟨shape, ends⟩ := stands
  cases p with
  | stray c =>
    have other : isStray c = true := shape
    refine .inl ⟨c, ?_, rfl⟩
    rintro rfl
    simp [isStray] at other
  | unclosed body => exact .inr ⟨body, rfl, ends⟩
  | _ => exact absurd fault id

theorem faultFirst {c : Char} {rest : Text}
    (none : ∀ (role : Role) (text : Text), role.Lexeme text → ¬ text <+: c :: rest) :
    ∃ (p : Piece) (left : Text), p.Stands left ∧ p.IsFault ∧ p.text ++ left = c :: rest := by
  have stands := firstStands c rest
  have whole := firstText c rest
  refine ⟨_, _, stands, ?_, whole⟩
  by_contra sound
  exact none _ _ (lexeme stands.wellFormed sound) ⟨_, whole⟩

theorem roleUnique {one other : Role} {text : Text} (member : one.Lexeme text)
    (also : other.Lexeme text) : one = other := by
  obtain ⟨p, shape, spelt, role, _⟩ := ofLexeme member
  obtain ⟨q, shape', spelt', role', _⟩ := ofLexeme also
  rw [← role, ← role', textInjective shape shape' (spelt.trans spelt'.symm)]

end Piece

theorem munchCut (source : Text) : Munch source ((Piece.cut source).map Piece.slice) := by
  induction source using Piece.pieceInduction with
  | nothing =>
    rw [Piece.cutEmpty]
    exact .nothing
  | piece p rest stands ih =>
    have none (fault : p.IsFault) (role : Role) (text : Text) (member : role.Lexeme text) :
        ¬ text <+: p.text ++ rest := fun begins => (Piece.noLongerLexeme stands member begins).1 fault
    rw [Piece.cutStands stands, List.map_cons]
    by_cases fault : p.IsFault
    · rcases Piece.faultCases stands fault with ⟨c, notQuote, rfl⟩ | ⟨body, rfl, rfl⟩
      · exact .stray notQuote (none fault) ih
      · rw [List.append_nil, Piece.cutEmpty]
        exact .unclosed (by simpa [Piece.text] using none fault)
    · exact .lexeme (Piece.lexeme stands.wellFormed fault)
        (fun role text member begins => (Piece.noLongerLexeme stands member begins).2) ih

theorem munchUnique {source : Text} {slices : List Slice} (munch : Munch source slices) :
    slices = (Piece.cut source).map Piece.slice := by
  induction munch with
  | nothing => rw [Piece.cutEmpty]; rfl
  | @lexeme role text rest slices member longest more ih =>
    obtain ⟨q, shape, rfl, sameRole, _⟩ := Piece.ofLexeme member
    obtain ⟨c, cs, starts⟩ := Piece.textNonempty shape
    have stands := Piece.firstStands c (cs ++ rest)
    have whole := Piece.firstText c (cs ++ rest)
    rw [← List.cons_append, ← starts] at whole
    generalize Piece.first c (cs ++ rest) = step at stands whole
    have bound := Piece.noLongerLexeme stands member (by rw [whole]; exact List.prefix_append _ _)
    have under := longest _ _ (Piece.lexeme stands.wellFormed bound.1) ⟨step.2, whole⟩
    obtain ⟨same, left⟩ := List.append_inj whole (Nat.le_antisymm under bound.2)
    rw [left] at stands
    have one := Piece.textInjective stands.wellFormed shape same
    subst one
    rw [Piece.cutStands stands, List.map_cons, ← ih, ← sameRole]
    rfl
  | @stray c rest slices notQuote none more ih =>
    obtain ⟨p, left, stands, fault, whole⟩ := Piece.faultFirst none
    rw [← whole, Piece.cutStands stands, List.map_cons]
    rcases Piece.faultCases stands fault with ⟨d, _, rfl⟩ | ⟨body, rfl, rfl⟩
    · obtain ⟨same, tail⟩ := List.cons.inj whole
      have behind : left = rest := tail
      rw [behind, ← ih, same]
      rfl
    · exact absurd (List.cons.inj whole).1.symm notQuote
  | @unclosed rest none =>
    obtain ⟨p, left, stands, fault, whole⟩ := Piece.faultFirst none
    rw [← whole, Piece.cutStands stands, List.map_cons]
    rcases Piece.faultCases stands fault with ⟨d, notQuote, rfl⟩ | ⟨body, rfl, rfl⟩
    · exact absurd (List.cons.inj whole).1 notQuote
    · rw [List.append_nil, Piece.cutEmpty]
      rfl

theorem slicesExact (source : Text) (slices : List Slice) :
    Munch source slices ↔ slices = (Piece.cut source).map Piece.slice := by
  constructor
  · exact munchUnique
  · rintro rfl
    exact munchCut source

theorem sliceToken (p : Piece) : p.slice.token? = p.content?.map fun content => (content.1, content.2.1) := by
  cases p <;> rfl

theorem sliceComplaint (p : Piece) : p.slice.complaint? = p.complaint? := by
  cases p <;> rfl

theorem sliceTokens (source : Text) :
    (Scan.ofText source).lexemes.map (fun t => (t.kind, t.lexeme)) =
      ((Piece.cut source).map Piece.slice).filterMap Slice.token? := by
  calc (Scan.ofText source).lexemes.map (fun t => (t.kind, t.lexeme))
      = ((Scan.ofText source).lexemes.map Token.content).map (fun content => (content.1, content.2.1)) := by
        rw [List.map_map]
        rfl
    _ = (Piece.cut source).filterMap fun p => p.slice.token? := by
        simp only [Scan.contents, List.map_filterMap, sliceToken]
    _ = ((Piece.cut source).map Piece.slice).filterMap Slice.token? := by
        rw [List.filterMap_map]
        rfl

theorem sliceComplaints (source : Text) :
    (Scan.ofText source).diagnostics.map Diagnostic.message =
      ((Piece.cut source).map Piece.slice).filterMap Slice.complaint? := by
  rw [Scan.complaints, List.filterMap_map]
  exact List.filterMap_congr fun p _ => (sliceComplaint p).symm

theorem munchEndless {source : Text} {slices : List Slice} (munch : Munch source slices) :
    ∀ s ∈ slices, s.role ≠ .token .eof := by
  induction munch with
  | nothing => simp
  | lexeme member longest more ih =>
    refine List.forall_mem_cons.mpr ⟨fun same => ?_, ih⟩
    obtain rfl := same
    cases member
  | stray notQuote none more ih => exact List.forall_mem_cons.mpr ⟨by simp, ih⟩
  | unclosed none => simp

theorem Scanner.scanIsMaximalMunch (source : Text) :
    ∃ s slices, (fresh source).scanTokens = some s ∧ (∀ other, Munch source other ↔ other = slices) ∧
      s.tokens.map (fun t => (t.kind, t.lexeme)) = slices.filterMap Slice.token? ++ [(.eof, [])] ∧
      (∀ slice ∈ slices, slice.role ≠ .token .eof) ∧
      s.diagnostics.map Diagnostic.message = slices.filterMap Slice.complaint? := by
  obtain ⟨s, answered, tokens, _, diagnostics⟩ := scanAnswers source
  refine ⟨s, (Piece.cut source).map Piece.slice, answered, slicesExact source, ?_,
    munchEndless (munchCut source), ?_⟩
  · rw [tokens, Scan.tokens, List.map_append, sliceTokens]
    rfl
  · rw [diagnostics]
    exact sliceComplaints source

end LoxLexer

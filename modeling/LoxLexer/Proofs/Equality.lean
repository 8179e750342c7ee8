import LoxLexer.Proofs.NumberLiterals
/-! Equality of tokens. The lexeme of a scanned token leaves no choice for its kind and its literal, wherever it
stands, so scanned tokens are equal where lexeme and line are; no literal is one of the doubles that would spoil it. -/
namespace LoxLexer

structure Scanned where
  source : Text
  token : Token
  scanned : ∃ s, (Scanner.fresh source).scanTokens = some s ∧ token ∈ s.tokens

namespace Double

theorem equalItself (x : Double) : x.equal x = !x.isNaN := by
  unfold equal
  cases x.isNaN <;> simp

end Double

theorem spelledNonempty {kind : Kind} {text : Text} (spelt : Spells kind text) : text ≠ [] := by
  obtain ⟨p, shape, rfl, _⟩ := Piece.ofSpelling spelt
  obtain ⟨c, cs, text⟩ := Piece.textNonempty shape
  rw [text]
  exact List.cons_ne_nil c cs

namespace Scan

theorem tokenSpelt {source : Text} {t : Token} (member : t ∈ (ofText source).tokens) :
    Spells t.kind t.lexeme ∨ (t.kind = .eof ∧ t.lexeme = []) := by
  rcases List.mem_append.mp member with lexeme | last
  · exact .inl (lexemeSpelt lexeme)
  · obtain rfl := List.mem_singleton.mp last
    exact .inr ⟨rfl, rfl⟩

theorem kindOfLexeme {one other : Text} {a b : Token} (left : a ∈ (ofText one).tokens)
    (right : b ∈ (ofText other).tokens) (same : a.lexeme = b.lexeme) : a.kind = b.kind := by
  rcases tokenSpelt left with spelt | ⟨last, empty⟩
  · rcases tokenSpelt right with also | ⟨_, empty⟩
    · have roles : Role.token a.kind = Role.token b.kind := Piece.roleUnique spelt (same ▸ also)
      exact Role.token.inj roles
    · exact absurd (same.trans empty) (spelledNonempty spelt)
  · rcases tokenSpelt right with also | ⟨lastToo, _⟩
    · exact absurd (same.symm.trans empty) (spelledNonempty also)
    · rw [last, lastToo]

theorem contentOfLexeme {one other : Text} {a b : Token} (left : a ∈ (ofText one).tokens)
    (right : b ∈ (ofText other).tokens) (same : a.lexeme = b.lexeme) : a.kind = b.kind ∧ a.literal = b.literal := by
  refine ⟨kindOfLexeme left right same, ?_⟩
  rw [literalExact one a left, literalExact other b right, same]

theorem numberPlain {source : Text} {t : Token} {x : Double} (member : t ∈ (ofText source).tokens)
    (literal : t.literal = some (.number x)) : x.isNaN = false ∧ x.isNegative = false := by
  rcases literalCases member with ⟨_, n, _, _, read⟩ | ⟨_, body, _, read⟩ | ⟨_, _, none⟩
  · obtain rfl := Literal.number.inj (Option.some.inj (read.symm.trans literal))
    have reads := Double.decimalReadsAs n.value
    exact ⟨reads.number, reads.positive⟩
  · cases Option.some.inj (read.symm.trans literal)
  · cases none.symm.trans literal

theorem equalItself {source : Text} {t : Token} (member : t ∈ (ofText source).tokens) : t.equal t = true := by
  have literals : Literal.equalOption t.literal t.literal = true := by
    cases read : t.literal with
    | none => rfl
    | some value =>
      cases value with
      | string body => exact beq_self_eq_true body
      | number x =>
        have number := (numberPlain member read).1
        exact (x.equalItself).trans (by rw [number]; rfl)
  simp [Token.equal, literals]

theorem equalExact {one other : Text} {a b : Token} (left : a ∈ (ofText one).tokens)
    (right : b ∈ (ofText other).tokens) : a.equal b = true ↔ a.lexeme = b.lexeme ∧ a.line = b.line := by
  constructor
  · intro equal
    simp only [Token.equal, Bool.and_eq_true, beq_iff_eq] at equal
    obtain ⟨⟨⟨_, lexeme⟩, _⟩, line⟩ := equal
    exact ⟨lexeme, line⟩
  · rintro ⟨lexeme, line⟩
    obtain ⟨kind, literal⟩ := contentOfLexeme left right lexeme
    have same : a = b := by
      obtain ⟨_, _, _, _⟩ := a
      obtain ⟨_, _, _, _⟩ := b
      rw [Token.mk.injEq]
      exact ⟨kind, lexeme, literal, line⟩
    exact same ▸ equalItself left

end Scan

theorem Scanned.inScan (a : Scanned) : a.token ∈ (Scan.ofText a.source).tokens := by
  obtain ⟨s, answered, member⟩ := a.scanned
  rwa [(Scanner.answerExact answered).1] at member

theorem Scanned.equalIsEquivalence : Equivalence (fun a b : Scanned => a.token.equal b.token = true) where
  refl a := Scan.equalItself a.inScan
  symm {a b} equal := by
    obtain ⟨lexeme, line⟩ := (Scan.equalExact a.inScan b.inScan).mp equal
    exact (Scan.equalExact b.inScan a.inScan).mpr ⟨lexeme.symm, line.symm⟩
  trans {a b c} equal equalToo := by
    obtain ⟨lexeme, line⟩ := (Scan.equalExact a.inScan b.inScan).mp equal
    obtain ⟨lexemeToo, lineToo⟩ := (Scan.equalExact b.inScan c.inScan).mp equalToo
    exact (Scan.equalExact a.inScan c.inScan).mpr ⟨lexeme.trans lexemeToo, line.trans lineToo⟩

theorem Scanner.lexemeDecides :
    (∀ one other : Text, ∃ s t, (fresh one).scanTokens = some s ∧ (fresh other).scanTokens = some t ∧
      ∀ a ∈ s.tokens, ∀ b ∈ t.tokens,
        (a.lexeme = b.lexeme → a.kind = b.kind ∧ a.literal = b.literal) ∧
        (a.equal b = true ↔ a.lexeme = b.lexeme ∧ a.line = b.line)) ∧
    Equivalence (fun a b : Scanned => a.token.equal b.token = true) ∧
    (∀ (a : Scanned) (x : Double), a.token.literal = some (.number x) → x.isNaN = false ∧ x.isNegative = false) ∧
    (∀ x : Double, x.isNaN = true → x.equal x = false) ∧ (⟨0x7ff8000000000000⟩ : Double).isNaN = true ∧
    (⟨0⟩ : Double) ≠ ⟨0x8000000000000000⟩ ∧ (⟨0⟩ : Double).equal ⟨0x8000000000000000⟩ = true := by
  refine ⟨fun one other => ?_, Scanned.equalIsEquivalence, fun a x => Scan.numberPlain a.inScan, fun x none => ?_,
    by decide, by decide, by decide⟩
  · obtain ⟨s, answered, tokens, _⟩ := scanAnswers one
    obtain ⟨t, answeredToo, tokensToo, _⟩ := scanAnswers other
    refine ⟨s, t, answered, answeredToo, fun a left b right => ?_⟩
    rw [tokens] at left
    rw [tokensToo] at right
    exact ⟨Scan.contentOfLexeme left right, Scan.equalExact left right⟩
  · rw [Double.equalItself, none]
    rfl

end LoxLexer

import LoxLexer.Proofs.NumberLiterals
import LoxLexer.Proofs.Digits
import LoxLexer.Proofs.Grids
/-! Numbers as they are shown. The text of a finite double that is not negative is a numeral, the double is what it
reads as, and every other numeral that it is read from has as many digits at least. -/
namespace LoxLexer

namespace Double

theorem bitsMagnitude {x : Double} (positive : x.isNegative = false) : x.bits.toNat = x.magnitude := by
  rw [isNegative, decide_eq_false_iff_not] at positive
  exact (Nat.mod_eq_of_lt (not_le.mp positive)).symm

theorem ofMagnitudeExact {x : Double} (positive : x.isNegative = false) : ofMagnitude x.magnitude = x := by
  rw [ofMagnitude, ← bitsMagnitude positive]
  exact congrArg Double.mk UInt64.ofNat_toNat

theorem quantityTens (d : Decimal) : d.quantity * 2 ^ 1074 = d.digits * tens (-d.scale) := by
  rw [Decimal.quantity, tens, zpow_neg, zpow_natCast]
  generalize (2 : ℚ) ^ 1074 = unit
  ring

theorem decimalAttracts {x : Double} (finite : x.isFinite = true) (positive : x.isNegative = false) (d : Decimal) :
    ofDecimal d = x ↔ Attracts x.magnitude (d.digits * tens (-d.scale)) := by
  have small : x.magnitude < infinity := of_decide_eq_true finite
  have some : 0 < Nat.pow 10 d.scale := Nat.pow_pos (by decide)
  have read (num : Nat) :
      ofMagnitude (nearest num (Nat.pow 10 d.scale)) = x ↔ Attracts x.magnitude ((num : ℚ) / (Nat.pow 10 d.scale : Nat)) := by
    rw [← nearestAttracts some small]
    constructor
    · rintro rfl
      exact (magnitudeOf (Nat.min_le_left _ _)).symm
    · intro same
      rw [same, ofMagnitudeExact positive]
  rw [← quantityTens, ofDecimal]
  -- The exponent is too large a literal to be worked with.
  generalize 1074 = places
  rw [read, d.quantityUnits places]
  have unit : (2 : ℚ) ^ places ≠ 0 := pow_ne_zero places two_ne_zero
  exact iff_of_eq (congrArg _ (div_mul_cancel₀ _ unit).symm)

theorem gridDecimalDigits (point index : Nat) : ∃ low, (gridDecimal point index).digits = point * 10 ^ low := by
  unfold gridDecimal
  split
  · exact ⟨0, (Nat.mul_one point).symm⟩
  · exact ⟨index - finest, rfl⟩

theorem gridDecimalExact (point index : Nat) :
    (gridDecimal point index).digits * tens (-(gridDecimal point index).scale) = point * tens (index - finest) := by
  unfold gridDecimal
  split
  · rename_i fine
    rw [Nat.cast_sub fine, neg_sub]
  · rename_i coarse
    have exponent : (index : ℤ) - finest = -(0 : Nat) + (index - finest : Nat) := by omega
    rw [exponent, tensShift, Nat.pow_eq, Nat.cast_mul, Nat.cast_pow, Nat.cast_ofNat, mul_assoc]

theorem shortestCases (magnitude : Nat) : (magnitude = 0 ∧ shortest magnitude = ⟨0, 0⟩) ∨
    (0 < magnitude ∧ ∃ (point index : Nat), shortest magnitude = gridDecimal point index ∧
      IsCoarsest magnitude point (index - finest)) := by
  rcases Nat.eq_zero_or_pos magnitude with rfl | some
  · exact .inl ⟨rfl, rfl⟩
  · exact .inr ⟨some, shortestFound some⟩

theorem shortestReads {x : Double} (finite : x.isFinite = true) (positive : x.isNegative = false) :
    ofDecimal (shortest x.magnitude) = x := by
  rw [decimalAttracts finite positive]
  obtain ⟨zero, shortest⟩ | ⟨some, point, index, shortest, grid⟩ := shortestCases x.magnitude
  · rw [shortest, zero]
    simp only [Nat.cast_zero, zero_mul]
    exact ⟨by simp [lowEdge, scaled], by simp [highEdge, scaled], fun _ => rfl, fun _ => rfl⟩
  · rw [shortest, gridDecimalExact]
    exact grid.attracts

theorem textShortest {x : Double} (finite : x.isFinite = true) (positive : x.isNegative = false) :
    x.text = (shortest x.magnitude).numeral.text := by
  have bound : x.magnitude < infinity := of_decide_eq_true finite
  have number : x.isNaN = false := decide_eq_false (by omega)
  simp [text, number, finite, positive]

theorem wholeScale {x : Double} (positive : x.isNegative = false) {whole : Nat} (value : x.value = whole) :
    (shortest x.magnitude).scale = 0 := by
  obtain ⟨_, shortest⟩ | ⟨some, point, index, shortest, grid⟩ := shortestCases x.magnitude
  · rw [shortest]
  · have units : (scaled x.magnitude : ℚ) = whole * tens 0 := by
      rw [valuePositive positive, div_eq_iff (pow_ne_zero _ two_ne_zero)] at value
      rw [value, tens, zpow_zero, one_mul]
    have coarse : finest ≤ index := by
      by_contra finer
      exact grid.coarsest whole 0 (by omega) (units ▸ attractsItself some)
    rw [shortest, gridDecimal]
    split
    · exact Nat.sub_eq_zero_of_le coarse
    · rfl

theorem shortestEnds {magnitude : Nat} (scale : (shortest magnitude).scale ≠ 0) : (shortest magnitude).digits % 10 ≠ 0 := by
  obtain ⟨_, shortest⟩ | ⟨some, point, index, shortest, grid⟩ := shortestCases magnitude
  · rw [shortest] at scale
    contradiction
  · rw [shortest, gridDecimal] at scale ⊢
    split at scale
    · rename_i fine
      rw [if_pos fine]
      exact pointEnds grid
    · contradiction

theorem shortestZero {magnitude : Nat} (zero : (shortest magnitude).digits = 0) : magnitude = 0 := by
  obtain ⟨zero, _⟩ | ⟨some, point, index, shortest, grid⟩ := shortestCases magnitude
  · exact zero
  · have attracts := grid.attracts
    rw [← gridDecimalExact, ← shortest, zero, Nat.cast_zero, zero_mul] at attracts
    exact absurd (attractedPositive some attracts) (lt_irrefl 0)

theorem shortestLeast {x : Double} (finite : x.isFinite = true) (positive : x.isNegative = false) {n : Numeral}
    (shape : n.WellFormed) (reads : ofDecimal n.value = x) :
    (shortest x.magnitude).numeral.text.significant ≤ n.text.significant := by
  obtain ⟨_, shortest⟩ | ⟨some, point, index, shortest, grid⟩ := shortestCases x.magnitude
  · rw [shortest]
    exact Nat.zero_le _
  · have attracts := (decimalAttracts finite positive _).mp reads
    obtain ⟨core, low, written, few⟩ := (Numeral.significantValue shape _).mp (le_refl _)
    have units : (n.value.digits : ℚ) * tens (-n.value.scale) = core * tens (-n.value.scale + low) := by
      rw [written, tensShift, Nat.cast_mul, Nat.cast_pow, Nat.cast_ofNat, mul_assoc]
    obtain ⟨shift, digits⟩ := gridDecimalDigits point index
    rw [Numeral.significantValue (Decimal.numeralWellFormed _), Decimal.numeralValue, shortest]
    exact ⟨point, shift, digits, pointLeast some grid (units ▸ attracts) few⟩

/- The numeral of a double: no fraction on a whole number, no zero at the end of a fraction, no zero in front but
before the point or in zero. -/
structure ShownAs (x : Double) (n : Numeral) : Prop where
  text : (Literal.number x).text = n.text
  wellFormed : n.WellFormed
  whole : ∀ k : Nat, x.value = k → n.fraction = []
  noTrailingZero : n.fraction.getLast? ≠ some '0'
  noLeadingZero : n.whole.head? = some '0' → n.whole = ['0'] ∧ (n.fraction = [] → x.bits = 0)

theorem shownAs {x : Double} (finite : x.isFinite = true) (positive : x.isNegative = false) :
    x.ShownAs (shortest x.magnitude).numeral := by
  have value := Decimal.numeralValue (shortest x.magnitude)
  refine ⟨textShortest finite positive, Decimal.numeralWellFormed _, fun k same => ?_, ?_, fun zero => ?_⟩
  · have scale := wholeScale positive same
    rw [← value] at scale
    exact List.length_eq_zero_iff.mp scale
  · exact Decimal.fractionEnd shortestEnds
  · have single := (Decimal.wholeLead (shortest x.magnitude)).resolve_right (not_not.mpr zero)
    refine ⟨single, fun none => ?_⟩
    have digits : (shortest x.magnitude).digits = 0 := by
      rw [← value, Numeral.value, single, none]
      rfl
    rw [← UInt64.toNat_inj, bitsMagnitude positive, shortestZero digits]
    rfl

end Double

namespace Numeral

theorem textOneLine {n : Numeral} (shape : n.WellFormed) : '\n' ∉ n.text :=
  fun feed => absurd (numeralParts shape _ feed) (by decide)

end Numeral

namespace Scan

theorem ofNumeral {n : Numeral} (shape : n.WellFormed) : (ofText n.text).diagnostics = [] ∧ (ofText n.text).errors = [] ∧
    (ofText n.text).tokens = [⟨.number, n.text, some (.number (.ofDecimal n.value)), 1⟩, Token.eof 1] := by
  have cuts : Piece.cut n.text = [.number n] := Piece.cutAlone (p := .number n) shape
  have line : (ofText n.text).finish.line = 1 :=
    congrArg (1 + ·) (List.count_eq_zero_of_not_mem (Numeral.textOneLine shape))
  have findings : (ofText n.text).findings =
      [.token ⟨.number, n.text, some (.number (.ofDecimal n.value)), 1⟩] := by
    rw [ofText, cuts]
    rfl
  have errors : (ofText n.text).errors = [] := by rw [Scan.errors, findings]; rfl
  refine ⟨by rw [Scan.diagnostics, errors, List.map_nil], errors, ?_⟩
  rw [tokens, lexemes, findings, line]
  rfl

end Scan

structure Double.ScansBack (x : Double) : Prop where
  shown : ∃ n : Numeral, x.ShownAs n
  scanned : ∃ s, (Scanner.fresh (Literal.number x).text).scanTokens = some s ∧ s.errors = [] ∧ s.diagnostics = [] ∧
    s.tokens = [⟨.number, (Literal.number x).text, some (.number x), 1⟩, Token.eof 1]
  shortest : ∀ (source : Text) (s : Scanner) (t : Token), (Scanner.fresh source).scanTokens = some s → t ∈ s.tokens →
    t.literal = some (.number x) → (Literal.number x).text.significant ≤ t.lexeme.significant

namespace Scanner

theorem numberLexeme {source : Text} {s : Scanner} {t : Token} {x : Double}
    (answered : (fresh source).scanTokens = some s) (member : t ∈ s.tokens) (literal : t.literal = some (.number x)) :
    ∃ n : Numeral, n.WellFormed ∧ t.lexeme = n.text ∧ Double.ofDecimal n.value = x := by
  rw [(answerExact answered).1] at member
  rcases Scan.literalCases member with ⟨_, n, shape, lexeme, number⟩ | ⟨_, body, _, string⟩ | ⟨_, _, none⟩
  · rw [number] at literal
    exact ⟨n, shape, lexeme, Literal.number.inj (Option.some.inj literal)⟩
  · rw [string] at literal
    cases Option.some.inj literal
  · rw [none] at literal
    cases literal

theorem displayScanned {x : Double} (finite : x.isFinite = true) (positive : x.isNegative = false) : x.ScansBack := by
  have shown := Double.shownAs finite positive
  refine ⟨⟨_, shown⟩, ?_, fun source s t answered member literal => ?_⟩
  · obtain ⟨s, answered, tokens, errors, diagnostics⟩ := scanAnswers (Literal.number x).text
    obtain ⟨quiet, sound, alone⟩ := Scan.ofNumeral shown.wellFormed
    rw [Decimal.numeralValue, Double.shortestReads finite positive] at alone
    rw [← shown.text] at quiet sound alone
    exact ⟨s, answered, errors.trans sound, diagnostics.trans quiet, tokens.trans alone⟩
  · obtain ⟨n, shape, lexeme, reads⟩ := numberLexeme answered member literal
    rw [shown.text, lexeme]
    exact Double.shortestLeast finite positive shape reads

theorem shownNumbersScanBack :
    (∀ x : Double, x.isFinite = true → x.isNegative = false → x.ScansBack) ∧
    ∀ (source : Text) (s : Scanner) (t : Token) (x : Double), (fresh source).scanTokens = some s → t ∈ s.tokens →
      t.literal = some (.number x) → x.isFinite = true → x.ScansBack := by
  refine ⟨fun x => displayScanned, fun source s t x answered member literal finite => ?_⟩
  obtain ⟨n, _, _, rfl⟩ := numberLexeme answered member literal
  exact displayScanned finite (Double.decimalReadsAs n.value).positive

/- Below a power of two the doubles are closer than above it: the nearest decimal of sixteen digits, with 1 at its
end, reads as another double. -/
theorem powerOfTwoScansBack :
    (⟨0x3d30000000000000⟩ : Double).isFinite = true ∧ (⟨0x3d30000000000000⟩ : Double).isNegative = false ∧
    (Literal.number ⟨0x3d30000000000000⟩).text = "0.00000000000005684341886080802".toList ∧
    Double.ScansBack ⟨0x3d30000000000000⟩ := by
  have finite : (⟨0x3d30000000000000⟩ : Double).isFinite = true := by decide
  have positive : (⟨0x3d30000000000000⟩ : Double).isNegative = false := by decide
  exact ⟨finite, positive, by decide +kernel, shownNumbersScanBack.1 _ finite positive⟩

end Scanner
end LoxLexer

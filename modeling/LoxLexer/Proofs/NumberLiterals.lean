import LoxLexer.Proofs.Magnitudes
import LoxLexer.Proofs.RoundTrip
import LoxLexer.Proofs.Cursor
/-! What a number literal is worth. The fields of a double give its value and the digits of a lexeme give theirs;
of all finite doubles a literal is the nearest to its lexeme, the even one of two, unless the lexeme is too large. -/
namespace LoxLexer

namespace Double

def exponent (x : Double) : Nat := x.bits.toNat / 2 ^ 52 % 2 ^ 11

def fraction (x : Double) : Nat := x.bits.toNat % 2 ^ 52

def significand (x : Double) : Nat := if x.exponent = 0 then x.fraction else 2 ^ 52 + x.fraction

def value (x : Double) : ℚ :=
  (if x.isNegative then -1 else 1) * x.significand * 2 ^ max x.exponent 1 / 2 ^ 1075

structure NearestTo (quantity : ℚ) (x : Double) : Prop where
  finite : x.isFinite = true
  closest : ∀ y : Double, y.isFinite = true → |x.value - quantity| ≤ |y.value - quantity|
  tie : ∀ y : Double, y.isFinite = true → y.value ≠ x.value →
    |y.value - quantity| = |x.value - quantity| → x.significand % 2 = 0

/- The double that a quantity is read as. The first bound is the middle between the largest finite double and the
power of two behind it, the second one the half of the least double. -/
structure ReadsAs (quantity : ℚ) (x : Double) : Prop where
  positive : x.isNegative = false
  number : x.isNaN = false
  infinite : x.bits = 0x7ff0000000000000 ↔ 2 ^ 1024 - 2 ^ 970 ≤ quantity
  zero : x.bits = 0 ↔ quantity ≤ 1 / 2 ^ 1075
  nearest : quantity < 2 ^ 1024 - 2 ^ 970 → x.NearestTo quantity

theorem fields (x : Double) : x.exponent = x.magnitude / 2 ^ 52 ∧ x.fraction = x.magnitude % 2 ^ 52 := by
  simp only [exponent, fraction, magnitude, Nat.pow_eq]
  omega

theorem significandPlaced (x : Double) : x.significand * 2 ^ max x.exponent 1 = 2 * scaled x.magnitude := by
  obtain ⟨high, low⟩ := fields x
  have parts : x.magnitude = x.exponent * 2 ^ 52 + x.fraction := by omega
  have narrow : x.fraction < 2 ^ 52 := by omega
  rw [parts]
  cases exponent : x.exponent with
  | zero =>
    rw [Nat.zero_mul, Nat.zero_add, scaledSmall narrow, significand, if_pos exponent]
    exact Nat.mul_comm _ _
  | succ before =>
    rw [scaledLarge before _ narrow, significand, if_neg (by omega), Nat.max_eq_left (by omega), Nat.pow_succ]
    ring

theorem significandParity (x : Double) : x.significand % 2 = x.magnitude % 2 := by
  obtain ⟨high, low⟩ := fields x
  unfold significand
  split <;> omega

theorem valueExact (x : Double) :
    x.value = (if x.isNegative then -1 else 1) * scaled x.magnitude / 2 ^ 1074 := by
  have placed : (x.significand : ℚ) * 2 ^ max x.exponent 1 = 2 * scaled x.magnitude := by
    exact_mod_cast significandPlaced x
  rw [value, mul_assoc, placed, pow_succ]
  field_simp

theorem valuePositive {x : Double} (positive : x.isNegative = false) : x.value = scaled x.magnitude / 2 ^ 1074 := by
  simp [valueExact, positive]

theorem distance (x : Double) (units : ℚ) : |x.value - units / 2 ^ 1074| =
    |(if x.isNegative then -1 else 1) * (scaled x.magnitude : ℚ) - units| / 2 ^ 1074 := by
  rw [valueExact, ← sub_div, abs_div, abs_of_pos (by positivity : (0 : ℚ) < 2 ^ 1074)]

theorem oppositeNearer {size units : ℚ} (some : 0 ≤ size) (positive : 0 ≤ units) :
    |size - units| ≤ |-1 * size - units| := by
  rw [abs_of_nonpos (by linarith : -1 * size - units ≤ 0)]
  exact abs_le.mpr ⟨by linarith, by linarith⟩

theorem attractsNearestTo {x : Double} {units : ℚ} (positive : x.isNegative = false) (finite : x.isFinite = true)
    (attracts : Attracts x.magnitude units) (some : 0 ≤ units) : x.NearestTo (units / 2 ^ 1074) := by
  have unit : (0 : ℚ) < 2 ^ 1074 := by positivity
  have size (y : Double) : (0 : ℚ) ≤ scaled y.magnitude := Nat.cast_nonneg _
  have here : |x.value - units / 2 ^ 1074| = |(scaled x.magnitude : ℚ) - units| / 2 ^ 1074 := by
    simp [distance, positive]
  refine ⟨finite, fun y _ => ?_, fun y _ different tie => ?_⟩
  · have nearest := attractsNearest attracts y.magnitude
    rw [here, distance, div_le_div_iff_of_pos_right unit]
    split
    · exact nearest.trans (oppositeNearer (size y) some)
    · simpa using nearest
  · rw [here, distance, div_left_inj' unit.ne'] at tie
    rw [significandParity]
    have nearest := attractsNearest attracts y.magnitude
    by_cases same : y.magnitude = x.magnitude
    · -- Opposite doubles are as near only to zero, and to zero only zero is nearest.
      cases sign : y.isNegative with
      | false => exact absurd (by rw [valuePositive sign, valuePositive positive, same]) different
      | true =>
        have zero := attractsNearest attracts 0
        rw [sign, if_pos rfl, same, abs_of_nonpos (by linarith [size x])] at tie
        rw [scaledSmall (Nat.two_pow_pos 52), Nat.cast_zero, zero_sub, abs_neg, abs_of_nonneg some, ← tie] at zero
        have nothing : (scaled x.magnitude : ℚ) = 0 := le_antisymm (by linarith) (size x)
        exact absurd (by simp [valueExact, same, nothing]) different
    · refine attractsTie attracts same (le_antisymm ?_ nearest)
      rw [← tie]
      split
      · exact oppositeNearer (size y) some
      · simp

theorem bitsOf {magnitude : Nat} (bound : magnitude ≤ infinity) : (ofMagnitude magnitude).bits.toNat = magnitude := by
  have small : magnitude < 2 ^ 64 := bound.trans_lt (by decide)
  rw [ofMagnitude, UInt64.toNat_ofNat', Nat.mod_eq_of_lt small]

theorem magnitudeOf {magnitude : Nat} (bound : magnitude ≤ infinity) : (ofMagnitude magnitude).magnitude = magnitude := by
  have small : magnitude < 2 ^ 63 := bound.trans_lt (by decide)
  rw [Double.magnitude, bitsOf bound, Nat.pow_eq, Nat.mod_eq_of_lt small]

theorem positiveOf {magnitude : Nat} (bound : magnitude ≤ infinity) : (ofMagnitude magnitude).isNegative = false := by
  have small : magnitude < 2 ^ 63 := bound.trans_lt (by decide)
  rw [isNegative, bitsOf bound, Nat.pow_eq, decide_eq_false_iff_not]
  omega

theorem numberOf {magnitude : Nat} (bound : magnitude ≤ infinity) : (ofMagnitude magnitude).isNaN = false := by
  rw [isNaN, magnitudeOf bound, decide_eq_false_iff_not]
  omega

theorem lastMiddle : (lowEdge infinity : ℚ) / 2 = (2 ^ 1024 - 2 ^ 970) * 2 ^ 1074 := by
  obtain ⟨shape, before⟩ : infinity = 2046 * 2 ^ 52 + 2 ^ 52 ∧ infinity - 1 = 2045 * 2 ^ 52 + (2 ^ 53 - 1) := by decide
  have last : (scaled (infinity - 1) : ℚ) = (2 ^ 53 - 1 : Nat) * 2 ^ 2045 := by
    rw [before, scaledPlace (by decide) (by decide), Nat.cast_mul, Nat.cast_pow 2 2045, Nat.cast_ofNat]
  have behind : (scaled infinity : ℚ) = 2 ^ 52 * 2 ^ 2046 := by
    rw [shape, scaledPlace (by decide) (by decide), Nat.cast_mul, Nat.cast_pow, Nat.cast_pow, Nat.cast_ofNat]
  have large : (2 : ℚ) ^ 2045 = 2 * (2 ^ 970 * 2 ^ 1074) := by rw [← pow_add, ← pow_succ']
  have larger : (2 : ℚ) ^ 2046 = 2 * 2 ^ 2045 := pow_succ' _ _
  have power : (2 : ℚ) ^ 1024 = 2 ^ 54 * 2 ^ 970 := by rw [← pow_add]
  rw [lowEdgeCast, last, behind, larger, large, power]
  generalize (2 : ℚ) ^ 970 = a
  generalize (2 : ℚ) ^ 1074 = b
  norm_num
  ring

theorem nearestReadsAs (num : Nat) {den : Nat} (some : 0 < den) :
    (ofMagnitude (nearest num den)).ReadsAs ((num : ℚ) / den / 2 ^ 1074) := by
  have unit : (0 : ℚ) < 2 ^ 1074 := by positivity
  have bound : nearest num den ≤ infinity := Nat.min_le_left _ _
  have large : 2 ^ 1024 - 2 ^ 970 ≤ (num : ℚ) / den / 2 ^ 1074 ↔ nearest num den = infinity := by
    rw [le_div_iff₀ unit, ← lastMiddle, nearestInfinity some]
  have small : (num : ℚ) / den / 2 ^ 1074 ≤ 1 / 2 ^ 1075 ↔ nearest num den = 0 := by
    rw [nearestZero some, div_le_iff₀ unit, pow_succ]
    field_simp
  refine ⟨positiveOf bound, numberOf bound, ?_, ?_, fun less => ?_⟩
  · rw [large, ← UInt64.toNat_inj, bitsOf bound]
    rfl
  · rw [small, ← UInt64.toNat_inj, bitsOf bound]
    rfl
  · have finite : nearest num den < infinity := by
      refine lt_of_le_of_ne bound fun reached => ?_
      exact absurd less (not_lt.mpr (large.mpr reached))
    have attracts := (nearestAttracts some finite).mp rfl
    rw [← magnitudeOf bound] at attracts
    have positive : (0 : ℚ) ≤ num / den := div_nonneg (Nat.cast_nonneg num) (Nat.cast_nonneg den)
    refine attractsNearestTo (positiveOf bound) ?_ attracts positive
    rw [Double.isFinite, magnitudeOf bound, decide_eq_true_iff]
    exact finite

end Double

namespace Decimal

def quantity (d : Decimal) : ℚ := d.digits / 10 ^ d.scale

theorem quantityUnits (d : Decimal) (places : Nat) :
    d.quantity = ((d.digits * Nat.pow 2 places : Nat) : ℚ) / (Nat.pow 10 d.scale : Nat) / 2 ^ places := by
  rw [quantity, Nat.pow_eq, Nat.pow_eq]
  push_cast
  field_simp

end Decimal

theorem Double.decimalReadsAs (d : Decimal) : (ofDecimal d).ReadsAs d.quantity := by
  have some : 0 < Nat.pow 10 d.scale := Nat.pow_pos (by decide)
  have read := fun num => nearestReadsAs num some
  rw [ofDecimal]
  -- The exponent is too large a literal to be worked with.
  generalize 1074 = places at read ⊢
  rw [d.quantityUnits places]
  exact read _

namespace Numeral

def quantity (n : Numeral) : ℚ :=
  Nat.ofDigitChars 10 n.whole 0 + Nat.ofDigitChars 10 n.fraction 0 / 10 ^ n.fraction.length

theorem quantityValue (n : Numeral) : n.value.quantity = n.quantity := by
  rw [Decimal.quantity, value, quantity, Nat.ofDigitChars_append, Nat.ofDigitChars_eq_ofDigitChars_zero]
  push_cast
  field_simp

end Numeral

namespace Scan

theorem literalCases {source : Text} {t : Token} (member : t ∈ (ofText source).tokens) :
    (t.kind = .number ∧ ∃ n : Numeral, n.WellFormed ∧ t.lexeme = n.text ∧
      t.literal = some (.number (.ofDecimal n.value))) ∨
    (t.kind = .string ∧ ∃ body, t.lexeme = '"' :: body ++ ['"'] ∧ t.literal = some (.string body)) ∨
    (t.kind ≠ .number ∧ t.kind ≠ .string ∧ t.literal = none) := by
  rcases List.mem_append.mp member with lexeme | last
  · obtain ⟨p, shape, found⟩ := lexemeOrigin lexeme
    obtain ⟨role, text, literal⟩ := originRole found
    rw [← text, ← literal]
    have kind {k : Kind} (named : p.role = .token k) : t.kind = k := Role.token.inj (role.symm.trans named)
    cases p with
    | number n => exact .inl ⟨kind rfl, n, shape, rfl, rfl⟩
    | string body => exact .inr (.inl ⟨kind rfl, body, rfl, rfl⟩)
    | mark m =>
      rw [kind (k := .mark m) rfl]
      exact .inr (.inr ⟨Kind.noConfusion, Kind.noConfusion, rfl⟩)
    | word letters =>
      rw [kind (k := .ofWord letters) rfl, Kind.ofWord]
      cases Keyword.ofText? letters <;> exact .inr (.inr ⟨Kind.noConfusion, Kind.noConfusion, rfl⟩)
    | _ => contradiction
  · obtain rfl := List.mem_singleton.mp last
    exact .inr (.inr ⟨Kind.noConfusion, Kind.noConfusion, rfl⟩)

end Scan

theorem Scanner.numbersAreNearest (source : Text) : ∃ s, (fresh source).scanTokens = some s ∧
    (∀ t ∈ s.tokens, t.kind = .number → ∃ (n : Numeral) (x : Double), n.WellFormed ∧ t.lexeme = n.text ∧
      t.literal = some (.number x) ∧ x.ReadsAs n.quantity) ∧
    (∀ t ∈ s.tokens, t.kind = .string → ∃ body, t.lexeme = '"' :: body ++ ['"'] ∧ t.literal = some (.string body)) ∧
    ∀ t ∈ s.tokens, t.kind ≠ .number → t.kind ≠ .string → t.literal = none := by
  obtain ⟨s, answered, tokens, _⟩ := scanAnswers source
  have literal {t : Token} (member : t ∈ s.tokens) := Scan.literalCases (tokens ▸ member)
  refine ⟨s, answered, fun t member number => ?_, fun t member string => ?_, fun t member notNumber notString => ?_⟩
  · obtain ⟨_, n, shape, lexeme, read⟩ | ⟨string, _⟩ | ⟨other, _⟩ := literal member
    · exact ⟨n, _, shape, lexeme, read, n.quantityValue ▸ Double.decimalReadsAs n.value⟩
    · exact Kind.noConfusion (number.symm.trans string)
    · exact absurd number other
  · obtain ⟨number, _⟩ | ⟨_, quoted⟩ | ⟨_, other, _⟩ := literal member
    · exact Kind.noConfusion (string.symm.trans number)
    · exact quoted
    · exact absurd string other
  · obtain ⟨number, _⟩ | ⟨string, _⟩ | ⟨_, _, none⟩ := literal member
    · exact absurd number notNumber
    · exact absurd string notString
    · exact none

end LoxLexer

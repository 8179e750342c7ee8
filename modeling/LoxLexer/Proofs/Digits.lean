import LoxLexer.Numeral
import Mathlib.Data.List.DropRight
import Mathlib.Tactic.Ring
/-! Digits and the number that they make. The digits without the zeros at either end are the fewest that make the
number with some power of ten; a decimal is written down with no zero in front but the one that a point needs. -/
namespace LoxLexer

namespace Text

/- A point is no digit, and a zero at either end of the digits tells nothing but where the point stands. -/
def significant (text : Text) : Nat :=
  (((text.filter Char.isDigit).dropWhile (· == '0')).rdropWhile (· == '0')).length

theorem digitsCons (c : Char) (rest : Text) : Nat.ofDigitChars 10 (c :: rest) 0 =
    10 ^ rest.length * (c.toNat - '0'.toNat) + Nat.ofDigitChars 10 rest 0 := by
  rw [Nat.ofDigitChars_cons, Nat.ofDigitChars_eq_ofDigitChars_zero, Nat.mul_zero, Nat.zero_add]

theorem digitsLast (front : Text) (c : Char) : Nat.ofDigitChars 10 (front ++ [c]) 0 =
    10 * Nat.ofDigitChars 10 front 0 + (c.toNat - '0'.toNat) := by
  rw [Nat.ofDigitChars_append, Nat.ofDigitChars_cons, Nat.ofDigitChars_nil]

theorem digitsLed (zeros : Nat) (rest : Text) :
    Nat.ofDigitChars 10 (List.replicate zeros '0' ++ rest) 0 = Nat.ofDigitChars 10 rest 0 := by
  rw [Nat.ofDigitChars_append, Nat.ofDigitChars_replicate_zero, Nat.mul_zero]

theorem digitsEnded (front : Text) (zeros : Nat) :
    Nat.ofDigitChars 10 (front ++ List.replicate zeros '0') 0 = Nat.ofDigitChars 10 front 0 * 10 ^ zeros := by
  rw [Nat.ofDigitChars_append, Nat.ofDigitChars_replicate_zero, Nat.mul_comm]

theorem digitRange {c : Char} (digit : c.isDigit = true) :
    c.toNat - '0'.toNat ≤ 9 ∧ (c ≠ '0' → 1 ≤ c.toNat - '0'.toNat) := by
  obtain ⟨low, high⟩ := Char.isDigit_iff_toNat.mp digit
  have zero : '0'.toNat = 48 := rfl
  have nine : '9'.toNat = 57 := rfl
  refine ⟨by omega, fun other => ?_⟩
  have different : c.toNat ≠ '0'.toNat := fun same => other (Char.toNat_inj.mp same)
  omega

theorem digitsBelow {digits : Text} (all : ∀ c ∈ digits, c.isDigit) :
    Nat.ofDigitChars 10 digits 0 < 10 ^ digits.length := by
  induction digits with
  | nil => exact Nat.one_pos
  | cons c rest ih =>
    have below := ih fun d member => all d (.tail c member)
    have digit := (digitRange (all c (.head rest))).1
    have most := Nat.mul_le_mul_left (10 ^ rest.length) digit
    rw [digitsCons, List.length_cons, Nat.pow_succ]
    omega

theorem digitsAbove {c : Char} (rest : Text) (digit : c.isDigit = true) (led : c ≠ '0') :
    10 ^ rest.length ≤ Nat.ofDigitChars 10 (c :: rest) 0 := by
  have least := Nat.mul_le_mul_left (10 ^ rest.length) ((digitRange digit).2 led)
  rw [digitsCons]
  omega

theorem digitsTens {front : Text} {c : Char} (digit : c.isDigit = true)
    (tens : Nat.ofDigitChars 10 (front ++ [c]) 0 % 10 = 0) : c = '0' := by
  by_contra other
  have range := digitRange digit
  have some := range.2 other
  rw [digitsLast] at tens
  omega

theorem zerosInFront (text : Text) : ∃ zeros, text = List.replicate zeros '0' ++ text.dropWhile (· == '0') := by
  have same : ∀ c ∈ text.takeWhile (· == '0'), c = '0' := fun c member =>
    eq_of_beq (List.mem_takeWhile_imp (p := (· == '0')) member)
  refine ⟨(text.takeWhile (· == '0')).length, ?_⟩
  rw [← List.eq_replicate_iff.mpr ⟨rfl, same⟩, List.takeWhile_append_dropWhile]

theorem zerosAtEnd (text : Text) : ∃ zeros, text = text.rdropWhile (· == '0') ++ List.replicate zeros '0' := by
  have same : ∀ c ∈ text.rtakeWhile (· == '0'), c = '0' := fun c member =>
    eq_of_beq (List.mem_rtakeWhile_imp (p := (· == '0')) member)
  refine ⟨(text.rtakeWhile (· == '0')).length, ?_⟩
  rw [← List.eq_replicate_iff.mpr ⟨rfl, same⟩, List.rdropWhile_append_rtakeWhile]

theorem significantCore {digits : Text} (all : ∀ c ∈ digits, c.isDigit) : ∃ (core : Text) (low : Nat),
    core.length = significant digits ∧ (∀ c ∈ core, c.isDigit) ∧ core.head? ≠ some '0' ∧ core.getLast? ≠ some '0' ∧
    Nat.ofDigitChars 10 digits 0 = Nat.ofDigitChars 10 core 0 * 10 ^ low := by
  have kept : digits.filter Char.isDigit = digits := List.filter_eq_self.mpr all
  have first := List.head?_dropWhile_not (· == '0') digits
  rw [significant, kept]
  obtain ⟨high, led⟩ := zerosInFront digits
  generalize digits.dropWhile (· == '0') = rest at first led ⊢
  obtain ⟨low, ended⟩ := zerosAtEnd rest
  have last := List.rdropWhile_last_not (· == '0') rest
  generalize rest.rdropWhile (· == '0') = core at ended last ⊢
  refine ⟨core, low, rfl, fun c member => ?_, fun zero => ?_, fun zero => ?_, ?_⟩
  · rw [led, ended] at all
    exact all c (List.mem_append_right _ (List.mem_append_left _ member))
  · obtain ⟨more, rfl⟩ := List.head?_eq_some_iff.mp zero
    simp [ended] at first
  · obtain ⟨front, rfl⟩ := List.getLast?_eq_some_iff.mp zero
    simp at last
  · rw [led, digitsLed, ended, digitsEnded]

theorem leastCore {number core low shift : Nat} (ended : number % 10 ≠ 0)
    (same : number * 10 ^ low = core * 10 ^ shift) : number ≤ core := by
  rcases Nat.lt_or_ge low shift with finer | coarser
  · obtain ⟨more, rfl⟩ := Nat.exists_eq_add_of_lt finer
    have tens : number * 10 ^ low = core * 10 ^ more * 10 * 10 ^ low := by
      rw [same]
      ring
    have multiple := Nat.eq_of_mul_eq_mul_right (Nat.pow_pos (by decide)) tens
    exact absurd (multiple ▸ Nat.mul_mod_left _ 10) ended
  · obtain ⟨more, rfl⟩ := Nat.exists_eq_add_of_le coarser
    have grown : number * 10 ^ more * 10 ^ shift = core * 10 ^ shift := by
      rw [← same]
      ring
    have product := Nat.eq_of_mul_eq_mul_right (Nat.pow_pos (by decide)) grown
    exact product ▸ Nat.le_mul_of_pos_right number (Nat.pow_pos (by decide))

theorem coreLength {core : Text} (all : ∀ c ∈ core, c.isDigit) (notLed : core.head? ≠ some '0') :
    10 ^ core.length ≤ 10 * Nat.ofDigitChars 10 core 0 ∨ core = [] := by
  cases core with
  | nil => exact .inr rfl
  | cons c rest =>
    have led : c ≠ '0' := fun zero => notLed (congrArg some zero)
    have least := digitsAbove rest (all c (.head rest)) led
    rw [List.length_cons, Nat.pow_succ]
    exact .inl (by omega)

theorem coreEnd {core : Text} (all : ∀ c ∈ core, c.isDigit) (notEnded : core.getLast? ≠ some '0') :
    Nat.ofDigitChars 10 core 0 % 10 ≠ 0 ∨ core = [] := by
  rcases List.eq_nil_or_concat' core with rfl | ⟨front, c, rfl⟩
  · exact .inr rfl
  · have digit : c.isDigit = true := all c (List.mem_append_right _ List.mem_cons_self)
    exact .inl fun tens => notEnded (by rw [List.getLast?_concat, digitsTens digit tens])

theorem significantAtMost {digits : Text} (all : ∀ c ∈ digits, c.isDigit) (count : Nat) :
    significant digits ≤ count ↔ ∃ core low, Nat.ofDigitChars 10 digits 0 = core * 10 ^ low ∧ core < 10 ^ count := by
  obtain ⟨text, low, length, isDigits, notLed, notEnded, number⟩ := significantCore all
  rw [number, ← length]
  constructor
  · intro few
    exact ⟨_, low, rfl, (digitsBelow isDigits).trans_le (Nat.pow_le_pow_right (by decide) few)⟩
  · rintro ⟨core, shift, same, small⟩
    obtain ended | rfl := coreEnd isDigits notEnded
    · obtain long | rfl := coreLength isDigits notLed
      · have least := leastCore ended same
        have below : 10 ^ text.length < 10 ^ (count + 1) := by
          rw [Nat.pow_succ]
          omega
        exact Nat.lt_succ_iff.mp ((Nat.pow_lt_pow_iff_right (by decide)).mp below)
      · exact Nat.zero_le count
    · exact Nat.zero_le count

end Text

namespace Numeral

theorem significantPoint (n : Numeral) : n.text.significant = Text.significant (n.whole ++ n.fraction) := by
  obtain ⟨whole, fraction⟩ := n
  cases fraction with
  | nil => rw [text, List.append_nil]
  | cons digit more =>
    have point : ('.' :: digit :: more).filter Char.isDigit = (digit :: more).filter Char.isDigit := rfl
    rw [text, Text.significant, Text.significant, List.filter_append, List.filter_append, point]

theorem significantValue {n : Numeral} (shape : n.WellFormed) (count : Nat) : n.text.significant ≤ count ↔
    ∃ core low, n.value.digits = core * 10 ^ low ∧ core < 10 ^ count := by
  have digits : ∀ c ∈ n.whole ++ n.fraction, c.isDigit := fun c member =>
    (List.mem_append.mp member).elim (shape.wholeDigits c) (shape.fractionDigits c)
  rw [significantPoint]
  exact Text.significantAtMost digits count

end Numeral

namespace Decimal

theorem digitsLead {number : Nat} {rest : Text} (led : Text.ofNat number = '0' :: rest) : rest = [] := by
  by_contra some
  have long : 0 < rest.length := List.length_pos_iff.mpr some
  have value : Nat.ofDigitChars 10 (Text.ofNat number) 0 = number := Nat.ofDigitChars_ten_toDigits
  have all : ∀ c ∈ rest, c.isDigit := fun c member =>
    Nat.isDigit_of_mem_toDigits (by decide) (by decide) (led ▸ .tail '0' member : c ∈ Text.ofNat number)
  have small : number < 10 ^ rest.length := by
    rw [← value, led, Text.digitsCons]
    simpa using Text.digitsBelow all
  have short := (Nat.length_toDigits_le_iff (by decide) long).mpr small
  have length : (Text.ofNat number).length = rest.length + 1 := congrArg List.length led
  rw [Text.ofNat] at length
  omega

theorem wholeLead (d : Decimal) : d.numeral.whole = ['0'] ∨ d.numeral.whole.head? ≠ some '0' := by
  have length : d.padded.length = (d.scale + 1 - (Text.ofNat d.digits).length) + (Text.ofNat d.digits).length := by
    rw [padded, List.length_append, List.length_replicate]
  rcases Nat.lt_or_ge d.scale (Text.ofNat d.digits).length with long | short
  · have bare : d.padded = Text.ofNat d.digits := by
      rw [padded, Nat.sub_eq_zero_of_le long, List.replicate_zero, List.nil_append]
    refine or_iff_not_imp_right.mpr fun zero => ?_
    obtain ⟨kept, some⟩ : ∃ kept, (Text.ofNat d.digits).length - d.scale = kept + 1 :=
      Nat.exists_eq_succ_of_ne_zero (by omega)
    rw [numeral, bare, some] at zero ⊢
    cases digits : Text.ofNat d.digits with
    | nil => simp [digits] at long
    | cons c rest =>
      obtain rfl : c = '0' := by simpa [digits] using zero
      rw [digitsLead digits, List.take_succ_cons, List.take_nil]
  · have one : d.padded.length - d.scale = 1 := by omega
    obtain ⟨zeros, more⟩ : ∃ zeros, d.scale + 1 - (Text.ofNat d.digits).length = zeros + 1 :=
      Nat.exists_eq_succ_of_ne_zero (by omega)
    left
    rw [numeral, one, padded, more, List.replicate_succ]
    rfl

theorem fractionEnd {d : Decimal} (rounded : d.scale ≠ 0 → d.digits % 10 ≠ 0) :
    d.numeral.fraction.getLast? ≠ some '0' := by
  intro zero
  obtain ⟨front, last⟩ := List.getLast?_eq_some_iff.mp zero
  have scale : d.scale = d.numeral.fraction.length := congrArg Decimal.scale (numeralValue d).symm
  have digits : d.digits = Nat.ofDigitChars 10 (d.numeral.whole ++ front ++ ['0']) 0 := by
    rw [List.append_assoc, ← last]
    exact congrArg Decimal.digits (numeralValue d).symm
  refine rounded (by rw [scale, last]; simp) ?_
  rw [digits, Text.digitsLast]
  exact Nat.mul_mod_right 10 _

end Decimal
end LoxLexer

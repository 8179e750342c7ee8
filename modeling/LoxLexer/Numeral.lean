import LoxLexer.Text
/-! Positional numerals and the exact decimals they denote. A decimal written out and read again is
the same decimal, its scale included. -/
namespace LoxLexer

structure Decimal where
  digits : Nat
  scale : Nat
  deriving DecidableEq, Repr

structure Numeral where
  whole : Text
  fraction : Text
  deriving DecidableEq, Repr

namespace Numeral

def text (n : Numeral) : Text :=
  match n.fraction with
  | [] => n.whole
  | digit :: more => n.whole ++ '.' :: digit :: more

def value (n : Numeral) : Decimal :=
  ⟨Nat.ofDigitChars 10 (n.whole ++ n.fraction) 0, n.fraction.length⟩

def ofText? (text : Text) : Option Numeral :=
  match text.takeWhile Char.isDigit, text.dropWhile Char.isDigit with
  | [], _ => none
  | whole, [] => some ⟨whole, []⟩
  | whole, '.' :: digit :: more =>
    if (digit :: more).all Char.isDigit then some ⟨whole, digit :: more⟩ else none
  | _, _ => none

structure WellFormed (n : Numeral) : Prop where
  whole : n.whole ≠ []
  wholeDigits : ∀ c ∈ n.whole, c.isDigit
  fractionDigits : ∀ c ∈ n.fraction, c.isDigit

end Numeral

namespace Decimal

def padded (d : Decimal) : Text :=
  List.replicate (d.scale + 1 - (Text.ofNat d.digits).length) '0' ++ Text.ofNat d.digits

def numeral (d : Decimal) : Numeral :=
  ⟨d.padded.take (d.padded.length - d.scale), d.padded.drop (d.padded.length - d.scale)⟩

theorem paddedLength (d : Decimal) : d.scale < d.padded.length := by
  simp only [padded, List.length_append, List.length_replicate]
  omega

theorem paddedDigits (d : Decimal) : ∀ c ∈ d.padded, c.isDigit := by
  intro c member
  rcases List.mem_append.mp member with zero | digit
  · rw [(List.mem_replicate.mp zero).2]
    decide
  · exact Nat.isDigit_of_mem_toDigits (by decide) (by decide) digit

theorem paddedValue (d : Decimal) : Nat.ofDigitChars 10 d.padded 0 = d.digits := by
  rw [padded, Nat.ofDigitChars_append, Nat.ofDigitChars_replicate_zero, Nat.mul_zero]
  exact Nat.ofDigitChars_ten_toDigits

theorem numeralValue (d : Decimal) : d.numeral.value = d := by
  have long := paddedLength d
  have same := paddedValue d
  simp only [numeral, Numeral.value, List.take_append_drop, List.length_drop, same]
  have scale : d.padded.length - (d.padded.length - d.scale) = d.scale := by omega
  rw [scale]

theorem numeralWellFormed (d : Decimal) : d.numeral.WellFormed := by
  have long := paddedLength d
  refine ⟨?_, fun c member => ?_, fun c member => ?_⟩
  · intro empty
    have none := congrArg List.length empty
    simp only [numeral, List.length_take, List.length_nil] at none
    omega
  · exact paddedDigits d c (List.mem_of_mem_take member)
  · exact paddedDigits d c (List.mem_of_mem_drop member)

end Decimal
end LoxLexer

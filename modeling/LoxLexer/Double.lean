import LoxLexer.Numeral
/-! Binary numbers of 64 bits: a sign, eleven bits of exponent, fifty-two of fraction. Without the
sign the bits count upwards with the value, so a magnitude is worked with as a natural number and
its value as an exact multiple of the least unit, `2 ^ -1074`. -/
namespace LoxLexer

structure Double where
  bits : UInt64
  deriving DecidableEq, Repr

namespace Double

def infinity : Nat := 2047 * Nat.pow 2 52

def magnitude (x : Double) : Nat := x.bits.toNat % Nat.pow 2 63

def isNegative (x : Double) : Bool := Nat.pow 2 63 ≤ x.bits.toNat

def isNaN (x : Double) : Bool := infinity < x.magnitude

def isFinite (x : Double) : Bool := x.magnitude < infinity

def ofMagnitude (magnitude : Nat) : Double := ⟨magnitude.toUInt64⟩

/-- Comparison of values: a NaN equals nothing, and both zeros are the same number. -/
def equal (x y : Double) : Bool :=
  !x.isNaN && !y.isNaN && (x.bits == y.bits || x.magnitude == 0 && y.magnitude == 0)

/-- The value of a magnitude in units of `2 ^ -1074`. The first range is subnormal; above it the
fraction has a leading one, and each step of the exponent doubles the unit. Infinity gets `2 ^ 1024`,
the value that rounding compares with. -/
def scaled (magnitude : Nat) : Nat :=
  if magnitude < Nat.pow 2 52 then magnitude
  else (Nat.pow 2 52 + magnitude % Nat.pow 2 52) * Nat.pow 2 (magnitude / Nat.pow 2 52 - 1)

end Double
end LoxLexer

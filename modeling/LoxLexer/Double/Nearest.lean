import LoxLexer.Double
/-! The double nearest to an exact decimal. The quotient is rounded once, at the last place that its
own size leaves to the fraction, with a tie going to the even neighbour; a carry out of the fraction
raises the exponent by itself because magnitudes count upwards with the value. -/
namespace LoxLexer.Double

def roundEven (num den : Nat) : Nat :=
  if 2 * (num % den) < den then num / den
  else if den < 2 * (num % den) then num / den + 1
  else num / den + num / den % 2

def dropped (units : Nat) : Nat := Nat.log2 units - 52

def nearest (num den : Nat) : Nat :=
  min infinity
    (dropped (num / den) * Nat.pow 2 52 +
      roundEven num (den * Nat.pow 2 (dropped (num / den))))

def ofDecimal (d : Decimal) : Double :=
  ofMagnitude (nearest (d.digits * Nat.pow 2 1074) (Nat.pow 10 d.scale))

end LoxLexer.Double

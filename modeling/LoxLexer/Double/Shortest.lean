import LoxLexer.Double
/-! The shortest decimal that reads back as a given double, and the text of a double. Among the
powers of ten, from coarse to fine, the first grid is taken that has a point in the interval of
values rounding to the double; of two such points the nearer is chosen, and the upper in a tie. -/
namespace LoxLexer.Double

def finest : Nat := 324

def lowEdge (magnitude : Nat) : Nat := scaled (magnitude - 1) + scaled magnitude

def highEdge (magnitude : Nat) : Nat := scaled magnitude + scaled (magnitude + 1)

/-- Whether `num / den`, in units of `2 ^ -1075`, rounds to the magnitude: the middles themselves do
where the magnitude is even. -/
def roundsTo (magnitude num den : Nat) : Bool :=
  if magnitude % 2 = 0 then
    lowEdge magnitude * den ≤ num && num ≤ highEdge magnitude * den
  else
    lowEdge magnitude * den < num && num < highEdge magnitude * den

def gridStep (index : Nat) : Nat := Nat.pow 10 index * Nat.pow 2 1075

def gridPoint? (magnitude index : Nat) : Option Nat :=
  let value := 2 * scaled magnitude * Nat.pow 10 finest
  let step := gridStep index
  let below := value / step
  let hits point := roundsTo magnitude (point * step) (Nat.pow 10 finest)
  if hits below then
    if hits (below + 1) && (below + 1) * step - value ≤ value - below * step then
      some (below + 1)
    else some below
  else if hits (below + 1) then some (below + 1)
  else none

def gridDecimal (point index : Nat) : Decimal :=
  if index ≤ finest then ⟨point, finest - index⟩ else ⟨point * Nat.pow 10 (index - finest), 0⟩

def search (magnitude : Nat) : Nat → Decimal
  | 0 => gridDecimal ((gridPoint? magnitude 0).getD 0) 0
  | index + 1 =>
    match gridPoint? magnitude (index + 1) with
    | some point => gridDecimal point (index + 1)
    | none => search magnitude index

def coarsest (magnitude : Nat) : Nat :=
  (Text.ofNat (scaled magnitude * Nat.pow 10 finest / Nat.pow 2 1074)).length

def shortest (magnitude : Nat) : Decimal :=
  if magnitude = 0 then ⟨0, 0⟩ else search magnitude (coarsest magnitude)

def text (x : Double) : Text :=
  if x.isNaN then "NaN".toList
  else
    let unsigned :=
      if x.isFinite then (shortest x.magnitude).numeral.text else "inf".toList
    if x.isNegative then '-' :: unsigned else unsigned

end LoxLexer.Double

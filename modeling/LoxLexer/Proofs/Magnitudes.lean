import LoxLexer.Double.Nearest
import LoxLexer.Double.Shortest
import Mathlib.Algebra.Order.Field.Basic
import Mathlib.Algebra.Order.Field.Rat
import Mathlib.Tactic.Linarith
import Mathlib.Tactic.Ring
import Mathlib.Tactic.FieldSimp
import Mathlib.Tactic.Positivity
/-! Which values round to a magnitude. Between two magnitudes next to each other lies their middle; a magnitude
attracts what lies between its two middles, and the middles themselves where it is even. Every value is attracted
by exactly one magnitude, and that is the one that rounding gives. Values are in least units here. -/
namespace LoxLexer.Double

structure Attracts (magnitude : Nat) (units : ℚ) : Prop where
  above : (lowEdge magnitude : ℚ) / 2 ≤ units
  below : units ≤ (highEdge magnitude : ℚ) / 2
  aboveTie : (lowEdge magnitude : ℚ) / 2 = units → magnitude % 2 = 0
  belowTie : units = (highEdge magnitude : ℚ) / 2 → magnitude % 2 = 0

theorem attractsBetween {magnitude : Nat} {a b c : ℚ} (left : Attracts magnitude a) (right : Attracts magnitude c)
    (low : a ≤ b) (high : b ≤ c) : Attracts magnitude b := by
  refine ⟨left.above.trans low, high.trans right.below, fun tie => ?_, fun tie => ?_⟩
  · exact left.aboveTie (le_antisymm left.above (low.trans tie.ge))
  · exact right.belowTie (le_antisymm right.below (tie.ge.trans high))

theorem attractsInside {magnitude : Nat} {units : ℚ} (low : (lowEdge magnitude : ℚ) / 2 < units)
    (high : units < (highEdge magnitude : ℚ) / 2) : Attracts magnitude units :=
  ⟨low.le, high.le, fun tie => absurd tie low.ne, fun tie => absurd tie high.ne⟩

theorem scaledSmall {magnitude : Nat} (small : magnitude < 2 ^ 52) : scaled magnitude = magnitude := if_pos small

theorem scaledLarge (exponent fraction : Nat) (narrow : fraction < 2 ^ 52) :
    scaled ((exponent + 1) * 2 ^ 52 + fraction) = (2 ^ 52 + fraction) * 2 ^ exponent := by
  have large : ¬ (exponent + 1) * 2 ^ 52 + fraction < 2 ^ 52 := by omega
  have upper : ((exponent + 1) * 2 ^ 52 + fraction) / 2 ^ 52 = exponent + 1 := by omega
  have lower : ((exponent + 1) * 2 ^ 52 + fraction) % 2 ^ 52 = fraction := by omega
  simp only [scaled, Nat.pow_eq, if_neg large, upper, lower, Nat.add_sub_cancel]

/- A significand of full width, or a narrower one at the lowest place; the next power of two comes in by a carry. -/
theorem scaledPlace {place significand : Nat} (full : place = 0 ∨ 2 ^ 52 ≤ significand)
    (narrow : significand ≤ 2 ^ 53) : scaled (place * 2 ^ 52 + significand) = significand * 2 ^ place := by
  by_cases small : significand < 2 ^ 52
  · obtain rfl : place = 0 := by omega
    rw [Nat.zero_mul, Nat.zero_add, scaledSmall small, Nat.pow_zero, Nat.mul_one]
  · by_cases carry : significand = 2 ^ 53
    · subst carry
      have shape : place * 2 ^ 52 + 2 ^ 53 = (place + 1 + 1) * 2 ^ 52 + 0 := by omega
      rw [shape, scaledLarge _ _ (Nat.two_pow_pos 52), Nat.pow_succ 2 place]
      ring
    · obtain ⟨fraction, rfl⟩ : ∃ fraction, significand = 2 ^ 52 + fraction := ⟨significand - 2 ^ 52, by omega⟩
      have shape : place * 2 ^ 52 + (2 ^ 52 + fraction) = (place + 1) * 2 ^ 52 + fraction := by omega
      rw [shape, scaledLarge _ _ (by omega)]

theorem placeOf (magnitude : Nat) : ∃ place significand, (place = 0 ∨ 2 ^ 52 ≤ significand) ∧
    significand < 2 ^ 53 ∧ magnitude = place * 2 ^ 52 + significand := by
  by_cases small : magnitude < 2 ^ 52
  · exact ⟨0, magnitude, .inl rfl, by omega, by omega⟩
  · exact ⟨magnitude / 2 ^ 52 - 1, 2 ^ 52 + magnitude % 2 ^ 52, .inr (by omega), by omega, by omega⟩

theorem scaledRises : StrictMono scaled := by
  refine strictMono_nat_of_lt_succ fun magnitude => ?_
  obtain ⟨place, significand, full, narrow, rfl⟩ := placeOf magnitude
  have next : place = 0 ∨ 2 ^ 52 ≤ significand + 1 := by omega
  rw [Nat.add_assoc, scaledPlace full narrow.le, scaledPlace next narrow]
  exact Nat.mul_lt_mul_of_pos_right (Nat.lt_succ_self significand) (Nat.two_pow_pos place)

theorem scaledDouble {magnitude : Nat} (some : 0 < magnitude) : scaled (magnitude + 1) ≤ 2 * scaled magnitude := by
  obtain ⟨place, significand, full, narrow, rfl⟩ := placeOf magnitude
  have next : place = 0 ∨ 2 ^ 52 ≤ significand + 1 := by omega
  have positive : 0 < significand := by omega
  rw [Nat.add_assoc, scaledPlace full narrow.le, scaledPlace next narrow, ← Nat.mul_assoc]
  exact Nat.mul_le_mul_right _ (by omega)

theorem lowEdgeCast (magnitude : Nat) : (lowEdge magnitude : ℚ) = scaled (magnitude - 1) + scaled magnitude :=
  Nat.cast_add _ _

theorem highEdgeCast (magnitude : Nat) : (highEdge magnitude : ℚ) = scaled magnitude + scaled (magnitude + 1) :=
  Nat.cast_add _ _

theorem scaledUnder (magnitude : Nat) : (scaled magnitude : ℚ) < (highEdge magnitude : ℚ) / 2 := by
  have next : (scaled magnitude : ℚ) < scaled (magnitude + 1) := by
    exact_mod_cast scaledRises (Nat.lt_succ_self magnitude)
  rw [highEdgeCast]
  linarith

theorem scaledOver {magnitude : Nat} (some : 0 < magnitude) : (lowEdge magnitude : ℚ) / 2 < scaled magnitude := by
  have previous : (scaled (magnitude - 1) : ℚ) < scaled magnitude := by
    exact_mod_cast scaledRises (Nat.sub_lt some Nat.one_pos)
  rw [lowEdgeCast]
  linarith

theorem attractsItself {magnitude : Nat} (some : 0 < magnitude) : Attracts magnitude (scaled magnitude) :=
  attractsInside (scaledOver some) (scaledUnder magnitude)

theorem attractedPositive {magnitude : Nat} {units : ℚ} (some : 0 < magnitude) (attracts : Attracts magnitude units) :
    0 < units := by
  have rises : 0 < scaled magnitude := (Nat.zero_le _).trans_lt (scaledRises some)
  have edge : (0 : ℚ) < lowEdge magnitude := by exact_mod_cast rises.trans_le (Nat.le_add_left _ _)
  have low := attracts.above
  linarith

theorem edgesMeet (magnitude : Nat) : lowEdge (magnitude + 1) = highEdge magnitude := rfl

theorem highEdgeRises : StrictMono highEdge := fun _ _ below =>
  Nat.add_lt_add (scaledRises below) (scaledRises (Nat.add_lt_add_right below 1))

/- No value is attracted twice: two magnitudes share a middle at most, and not both of them are even. -/
theorem attractsOne {a b : Nat} {units : ℚ} (left : Attracts a units) (right : Attracts b units) : a = b := by
  have unordered {a b : Nat} (left : Attracts a units) (right : Attracts b units) : ¬ a < b := by
    intro below
    obtain ⟨c, rfl⟩ : ∃ c, b = c + 1 := ⟨b - 1, by omega⟩
    have high := left.below
    have low := right.above
    rw [edgesMeet] at low
    by_cases next : a = c
    · subst next
      have even := left.belowTie (le_antisymm high low)
      have evenToo := right.aboveTie (by rw [edgesMeet]; exact le_antisymm low high)
      omega
    · have apart : (highEdge a : ℚ) < highEdge c := by exact_mod_cast highEdgeRises (by omega : a < c)
      linarith
  have notBelow := unordered left right
  have notAbove := unordered right left
  omega

theorem scaledBelow {other magnitude : Nat} (below : other < magnitude) :
    scaled other + scaled magnitude ≤ lowEdge magnitude := by
  have least := scaledRises.monotone (by omega : other ≤ magnitude - 1)
  exact Nat.add_le_add_right least _

theorem scaledAbove {other magnitude : Nat} (above : magnitude < other) :
    highEdge magnitude ≤ scaled magnitude + scaled other :=
  Nat.add_le_add_left (scaledRises.monotone above) _

theorem attractsNearest {magnitude : Nat} {units : ℚ} (attracts : Attracts magnitude units) (other : Nat) :
    |(scaled magnitude : ℚ) - units| ≤ |(scaled other : ℚ) - units| := by
  have low := attracts.above
  have high := attracts.below
  rcases Nat.lt_trichotomy other magnitude with below | rfl | above
  · have order : (scaled other : ℚ) ≤ scaled magnitude := by exact_mod_cast (scaledRises below).le
    have edge : (scaled other : ℚ) + scaled magnitude ≤ lowEdge magnitude := by exact_mod_cast scaledBelow below
    rw [abs_of_nonpos (by linarith : (scaled other : ℚ) - units ≤ 0)]
    exact abs_le.mpr ⟨by linarith, by linarith⟩
  · exact le_refl _
  · have order : (scaled magnitude : ℚ) ≤ scaled other := by exact_mod_cast (scaledRises above).le
    have edge : (highEdge magnitude : ℚ) ≤ scaled magnitude + scaled other := by exact_mod_cast scaledAbove above
    rw [abs_of_nonneg (by linarith : 0 ≤ (scaled other : ℚ) - units)]
    exact abs_le.mpr ⟨by linarith, by linarith⟩

theorem attractsTie {magnitude other : Nat} {units : ℚ} (attracts : Attracts magnitude units)
    (different : other ≠ magnitude) (tie : |(scaled other : ℚ) - units| = |(scaled magnitude : ℚ) - units|) :
    magnitude % 2 = 0 := by
  have low := attracts.above
  have high := attracts.below
  have apart : (scaled other : ℚ) ≠ scaled magnitude := by exact_mod_cast scaledRises.injective.ne different
  have middle : (scaled other : ℚ) + scaled magnitude = 2 * units := by
    rcases abs_eq_abs.mp tie with same | across
    · exact absurd (by linarith) apart
    · linarith
  rcases Nat.lt_or_gt_of_ne different with below | above
  · have edge : (scaled other : ℚ) + scaled magnitude ≤ lowEdge magnitude := by exact_mod_cast scaledBelow below
    exact attracts.aboveTie (by linarith)
  · have edge : (highEdge magnitude : ℚ) ≤ scaled magnitude + scaled other := by exact_mod_cast scaledAbove above
    exact attracts.belowTie (by linarith)

structure IsRounded (quotient : ℚ) (rounded : Nat) : Prop where
  above : (rounded : ℚ) - 1 / 2 ≤ quotient
  below : quotient ≤ rounded + 1 / 2
  aboveTie : (rounded : ℚ) - 1 / 2 = quotient → rounded % 2 = 0
  belowTie : quotient = rounded + 1 / 2 → rounded % 2 = 0

theorem roundEvenExact (num : Nat) {den : Nat} (some : 0 < den) : IsRounded (num / den) (roundEven num den) := by
  have positive : (0 : ℚ) < den := by exact_mod_cast some
  have quotient : (num : ℚ) / den = (num / den : Nat) + (num % den : Nat) / (den : ℚ) := by
    have parts : (num : ℚ) = den * (num / den : Nat) + (num % den : Nat) := by
      exact_mod_cast (Nat.div_add_mod num den).symm
    field_simp
    linarith
  have share : (0 : ℚ) ≤ (num % den : Nat) / (den : ℚ) := by positivity
  have rest : ((num % den : Nat) : ℚ) / den < 1 := by
    rw [div_lt_one positive]
    exact_mod_cast Nat.mod_lt num some
  unfold roundEven
  split
  · rename_i small
    have less : ((num % den : Nat) : ℚ) / den < 1 / 2 := by
      rw [div_lt_div_iff₀ positive two_pos]
      exact_mod_cast (by omega : num % den * 2 < 1 * den)
    rw [quotient]
    exact ⟨by linarith, by linarith, fun tie => by linarith, fun tie => by linarith⟩
  split
  · rename_i large
    have more : 1 / 2 < ((num % den : Nat) : ℚ) / den := by
      rw [div_lt_div_iff₀ two_pos positive]
      exact_mod_cast (by omega : 1 * den < num % den * 2)
    have next : ((num / den + 1 : Nat) : ℚ) = (num / den : Nat) + 1 := Nat.cast_succ _
    rw [quotient]
    exact ⟨by linarith, by linarith, fun tie => by linarith, fun tie => by linarith⟩
  · have half : ((num % den : Nat) : ℚ) / den = 1 / 2 := by
      rw [div_eq_div_iff positive.ne' two_ne_zero]
      exact_mod_cast (by omega : num % den * 2 = 1 * den)
    have even : (num / den + num / den % 2) % 2 = 0 := by omega
    have carry : ((num / den % 2 : Nat) : ℚ) ≤ 1 := by exact_mod_cast (by omega : num / den % 2 ≤ 1)
    have nothing : (0 : ℚ) ≤ (num / den % 2 : Nat) := Nat.cast_nonneg _
    have either : ((num / den + num / den % 2 : Nat) : ℚ) = (num / den : Nat) + (num / den % 2 : Nat) := Nat.cast_add _ _
    rw [quotient, half]
    exact ⟨by linarith, by linarith, fun _ => even, fun _ => even⟩

section
variable {place significand : Nat} {quotient : ℚ}

theorem placedBelow (rounded : IsRounded quotient significand) (narrow : quotient < 2 ^ 53)
    (here : (scaled (place * 2 ^ 52 + significand) : ℚ) = significand * 2 ^ place)
    (full : place = 0 ∨ 2 ^ 52 ≤ significand) :
    quotient * 2 ^ place ≤ (highEdge (place * 2 ^ 52 + significand) : ℚ) / 2 ∧
      (quotient * 2 ^ place = (highEdge (place * 2 ^ 52 + significand) : ℚ) / 2 → significand % 2 = 0) := by
  have unit : (0 : ℚ) < 2 ^ place := by positivity
  rcases le_or_gt quotient significand with down | up
  · have bound := mul_le_mul_of_nonneg_right down unit.le
    have edge := (bound.trans here.ge).trans_lt (scaledUnder _)
    exact ⟨edge.le, fun tie => absurd tie edge.ne⟩
  · have inside : significand < 2 ^ 53 := by exact_mod_cast up.trans narrow
    have next := @scaledPlace place (significand + 1) (by omega) inside
    have edge : (highEdge (place * 2 ^ 52 + significand) : ℚ) / 2 = (significand + 1 / 2) * 2 ^ place := by
      rw [highEdgeCast, here, Nat.add_assoc, next]
      push_cast
      ring
    rw [edge]
    refine ⟨mul_le_mul_of_nonneg_right rounded.below unit.le, fun tie => ?_⟩
    exact rounded.belowTie (mul_right_cancel₀ unit.ne' tie)

theorem placedAbove (rounded : IsRounded quotient significand) (positive : 0 ≤ quotient)
    (here : (scaled (place * 2 ^ 52 + significand) : ℚ) = significand * 2 ^ place)
    (full : place = 0 ∨ 2 ^ 52 ≤ quotient) (narrow : significand ≤ 2 ^ 53) :
    (lowEdge (place * 2 ^ 52 + significand) : ℚ) / 2 ≤ quotient * 2 ^ place ∧
      ((lowEdge (place * 2 ^ 52 + significand) : ℚ) / 2 = quotient * 2 ^ place → significand % 2 = 0) := by
  have unit : (0 : ℚ) < 2 ^ place := by positivity
  rcases le_or_gt (significand : ℚ) quotient with up | down
  · rcases Nat.eq_zero_or_pos (place * 2 ^ 52 + significand) with nothing | some
    · rw [nothing]
      exact ⟨by simpa [lowEdge, scaled] using mul_nonneg positive unit.le, fun _ => by omega⟩
    · have bound := mul_le_mul_of_nonneg_right up unit.le
      have edge := (scaledOver some).trans_le (here.le.trans bound)
      exact ⟨edge.le, fun tie => absurd tie edge.ne⟩
  · have inside : place = 0 ∨ 2 ^ 52 < significand := full.imp_right fun large => by exact_mod_cast large.trans_lt down
    have some : 0 < significand := by exact_mod_cast positive.trans_lt down
    obtain ⟨before, rfl⟩ : ∃ before, significand = before + 1 := ⟨significand - 1, by omega⟩
    have previous := @scaledPlace place before (by omega) (by omega)
    have edge : (lowEdge (place * 2 ^ 52 + (before + 1)) : ℚ) / 2 = ((before + 1 : Nat) - 1 / 2) * 2 ^ place := by
      rw [lowEdgeCast, here, ← Nat.add_assoc, Nat.add_sub_cancel, previous]
      push_cast
      ring
    rw [edge]
    refine ⟨mul_le_mul_of_nonneg_right rounded.above unit.le, fun tie => ?_⟩
    exact rounded.aboveTie (mul_right_cancel₀ unit.ne' tie)

/- At the place that its size leaves to it a value is rounded to the magnitude that attracts it. The middles are
those of the significand, but for the neighbour across a power of two, which the value does not go near. -/
theorem placedAttracts (rounded : IsRounded quotient significand) (positive : 0 ≤ quotient)
    (full : place = 0 ∨ 2 ^ 52 ≤ quotient) (narrow : quotient < 2 ^ 53) :
    Attracts (place * 2 ^ 52 + significand) (quotient * 2 ^ place) := by
  have low := rounded.above
  have high := rounded.below
  have most : significand ≤ 2 ^ 53 := by
    have less : (significand : ℚ) < 2 ^ 53 + 1 := by linarith
    exact Nat.lt_succ_iff.mp (by exact_mod_cast less)
  have least : place = 0 ∨ 2 ^ 52 ≤ significand := by
    refine full.imp_right fun large => ?_
    have more : (2 ^ 52 : ℚ) < significand + 1 := by linarith
    exact Nat.lt_succ_iff.mp (by exact_mod_cast more)
  have here : (scaled (place * 2 ^ 52 + significand) : ℚ) = significand * 2 ^ place := by
    exact_mod_cast scaledPlace least most
  have parity : (place * 2 ^ 52 + significand) % 2 = significand % 2 := by omega
  obtain ⟨below, belowTie⟩ := placedBelow rounded narrow here least
  obtain ⟨above, aboveTie⟩ := placedAbove rounded positive here full most
  exact ⟨above, below, fun tie => parity.trans (aboveTie tie), fun tie => parity.trans (belowTie tie)⟩

end

theorem droppedBounds (units : Nat) :
    (dropped units = 0 ∨ 2 ^ 52 * 2 ^ dropped units ≤ units) ∧ units < 2 ^ 53 * 2 ^ dropped units := by
  have top : units < 2 ^ (units.log2 + 1) := Nat.lt_log2_self
  have split : units.log2 ≤ 52 + dropped units := by
    rw [dropped]
    omega
  constructor
  · rcases Nat.lt_or_ge 52 units.log2 with large | small
    · have some : units ≠ 0 := by
        rintro rfl
        simp at large
      have exact : 52 + dropped units = units.log2 := by
        rw [dropped]
        omega
      rw [← Nat.pow_add, exact]
      exact .inr (Nat.log2_self_le some)
    · exact .inl (Nat.sub_eq_zero_of_le small)
  · rw [← Nat.pow_add]
    exact top.trans_le (Nat.pow_le_pow_right two_pos (by omega))

def unbounded (num den : Nat) : Nat :=
  dropped (num / den) * 2 ^ 52 + roundEven num (den * 2 ^ dropped (num / den))

theorem nearestUnbounded (num den : Nat) : nearest num den = min infinity (unbounded num den) := rfl

theorem unboundedAttracts (num : Nat) {den : Nat} (some : 0 < den) :
    Attracts (unbounded num den) ((num : ℚ) / den) := by
  obtain ⟨full, narrow⟩ := droppedBounds (num / den)
  rw [unbounded]
  generalize dropped (num / den) = place at full narrow
  have unit : (0 : ℚ) < 2 ^ place := by positivity
  have positive : (0 : ℚ) < den := by exact_mod_cast some
  have share : (0 : ℚ) < (den * 2 ^ place : Nat) := by exact_mod_cast Nat.mul_pos some (Nat.two_pow_pos place)
  have placed : (num : ℚ) / (den * 2 ^ place : Nat) * 2 ^ place = num / den := by
    push_cast
    field_simp
  rw [← placed]
  refine placedAttracts (roundEvenExact num (Nat.mul_pos some (Nat.two_pow_pos place))) (by positivity) ?_ ?_
  · refine full.imp_right fun large => ?_
    have bound := (Nat.le_div_iff_mul_le some).mp large
    rw [le_div_iff₀ share]
    calc (2 ^ 52 : ℚ) * (den * 2 ^ place : Nat) = (2 ^ 52 * 2 ^ place * den : Nat) := by push_cast; ring
      _ ≤ num := by exact_mod_cast bound
  · have bound := (Nat.div_lt_iff_lt_mul some).mp narrow
    rw [div_lt_iff₀ share]
    calc (num : ℚ) < (2 ^ 53 * 2 ^ place * den : Nat) := by exact_mod_cast bound
      _ = 2 ^ 53 * (den * 2 ^ place : Nat) := by push_cast; ring

theorem attractsUnbounded {num den magnitude : Nat} (some : 0 < den) :
    Attracts magnitude ((num : ℚ) / den) ↔ unbounded num den = magnitude := by
  constructor
  · exact attractsOne (unboundedAttracts num some)
  · rintro rfl
    exact unboundedAttracts num some

theorem nearestAttracts {num den magnitude : Nat} (some : 0 < den) (finite : magnitude < infinity) :
    nearest num den = magnitude ↔ Attracts magnitude ((num : ℚ) / den) := by
  rw [attractsUnbounded some, nearestUnbounded]
  omega

theorem nearestInfinity {num den : Nat} (some : 0 < den) :
    nearest num den = infinity ↔ (lowEdge infinity : ℚ) / 2 ≤ (num : ℚ) / den := by
  have attracts := unboundedAttracts num some
  have reaches : nearest num den = infinity ↔ infinity ≤ unbounded num den := by
    rw [nearestUnbounded]
    omega
  rw [reaches]
  generalize unbounded num den = rounded at attracts
  constructor
  · intro large
    have edge : (lowEdge infinity : ℚ) ≤ lowEdge rounded := by
      exact_mod_cast Nat.add_le_add (scaledRises.monotone (Nat.sub_le_sub_right large 1)) (scaledRises.monotone large)
    have above := attracts.above
    linarith
  · intro large
    by_contra small
    -- Only the last finite magnitude has its middle there, and it is odd.
    obtain ⟨last, next, odd⟩ : ∃ last, infinity = last + 1 ∧ last % 2 = 1 := ⟨2047 * 2 ^ 52 - 1, by decide⟩
    rw [next, edgesMeet] at large
    have edge : (highEdge rounded : ℚ) ≤ highEdge last := by
      exact_mod_cast highEdgeRises.monotone (by omega : rounded ≤ last)
    have below := attracts.below
    have even := attracts.belowTie (le_antisymm below (by linarith))
    have same : (highEdge rounded : ℚ) = highEdge last := le_antisymm edge (by linarith)
    rw [highEdgeRises.injective (by exact_mod_cast same : highEdge rounded = highEdge last)] at even
    omega

theorem nearestZero {num den : Nat} (some : 0 < den) : nearest num den = 0 ↔ (num : ℚ) / den ≤ 1 / 2 := by
  rw [nearestAttracts some (by decide)]
  have low : (lowEdge 0 : ℚ) = 0 := by simp [lowEdge, scaled]
  have high : (highEdge 0 : ℚ) = 1 := by simp [highEdge, scaled]
  constructor
  · intro attracts
    have below := attracts.below
    rwa [high] at below
  · intro small
    refine ⟨?_, by rwa [high], fun _ => rfl, fun _ => rfl⟩
    rw [low, zero_div]
    positivity

theorem roundsToAttracts {magnitude num den : Nat} (some : 0 < den) :
    roundsTo magnitude num den = true ↔ Attracts magnitude ((num : ℚ) / den / 2) := by
  have positive : (0 : ℚ) < den := by exact_mod_cast some
  have lowLe : (lowEdge magnitude : ℚ) / 2 ≤ (num : ℚ) / den / 2 ↔ lowEdge magnitude * den ≤ num := by
    rw [div_le_div_iff_of_pos_right two_pos, le_div_iff₀ positive]
    exact_mod_cast Iff.rfl
  have lowLt : (lowEdge magnitude : ℚ) / 2 < (num : ℚ) / den / 2 ↔ lowEdge magnitude * den < num := by
    rw [div_lt_div_iff_of_pos_right two_pos, lt_div_iff₀ positive]
    exact_mod_cast Iff.rfl
  have highLe : (num : ℚ) / den / 2 ≤ (highEdge magnitude : ℚ) / 2 ↔ num ≤ highEdge magnitude * den := by
    rw [div_le_div_iff_of_pos_right two_pos, div_le_iff₀ positive]
    exact_mod_cast Iff.rfl
  have highLt : (num : ℚ) / den / 2 < (highEdge magnitude : ℚ) / 2 ↔ num < highEdge magnitude * den := by
    rw [div_lt_div_iff_of_pos_right two_pos, div_lt_iff₀ positive]
    exact_mod_cast Iff.rfl
  unfold roundsTo
  split
  · rename_i even
    rw [Bool.and_eq_true, decide_eq_true_iff, decide_eq_true_iff, ← lowLe, ← highLe]
    exact ⟨fun ⟨low, high⟩ => ⟨low, high, fun _ => even, fun _ => even⟩, fun attracts => ⟨attracts.above, attracts.below⟩⟩
  · rename_i odd
    rw [Bool.and_eq_true, decide_eq_true_iff, decide_eq_true_iff, ← lowLt, ← highLt]
    constructor
    · rintro ⟨low, high⟩
      exact attractsInside low high
    · intro attracts
      have low := lt_of_le_of_ne attracts.above fun tie => odd (attracts.aboveTie tie)
      have high := lt_of_le_of_ne attracts.below fun tie => odd (attracts.belowTie tie)
      exact ⟨low, high⟩

end LoxLexer.Double

import LoxLexer.Proofs.Magnitudes
import Mathlib.Algebra.Order.Field.Power
/-! The coarsest grid with a number. A magnitude attracts points of a grid of multiples of a power of ten if the grid
is fine enough; the search for the coarsest such grid starts above it, and the finest it tries has a point always. -/
namespace LoxLexer.Double

def tens (exponent : ℤ) : ℚ := 10 ^ exponent * 2 ^ 1074

theorem tensPositive (exponent : ℤ) : 0 < tens exponent :=
  mul_pos (zpow_pos (by decide) exponent) (pow_pos two_pos _)

theorem tensShift (exponent : ℤ) (places : Nat) : tens (exponent + places) = 10 ^ places * tens exponent := by
  rw [tens, tens, zpow_add₀ (by decide), zpow_natCast, mul_comm ((10 : ℚ) ^ exponent), mul_assoc]

theorem tensRise {low high : ℤ} (order : low ≤ high) : tens low ≤ tens high :=
  mul_le_mul_of_nonneg_right (zpow_le_zpow_right₀ (by decide) order) (pow_pos two_pos _).le

section
variable {magnitude : Nat}

theorem gridStepCast (index : Nat) : (gridStep index : ℚ) = 10 ^ index * 2 ^ 1075 := by
  unfold gridStep
  generalize 1075 = places
  rw [Nat.cast_mul, Nat.pow_eq, Nat.pow_eq, Nat.cast_pow, Nat.cast_pow, Nat.cast_ofNat, Nat.cast_ofNat]

theorem wholeCast : ((Nat.pow 10 finest : Nat) : ℚ) = 10 ^ finest := by
  generalize finest = places
  rw [Nat.pow_eq, Nat.cast_pow, Nat.cast_ofNat]

theorem gridStepPositive (index : Nat) : 0 < gridStep index := by
  unfold gridStep
  generalize 1075 = places
  exact Nat.mul_pos (Nat.pow_pos (by decide)) (Nat.pow_pos (by decide))

theorem wholePositive : 0 < Nat.pow 10 finest := by
  generalize finest = places
  exact Nat.pow_pos (by decide)

theorem gridWidth (index : Nat) : (gridStep index : ℚ) / (Nat.pow 10 finest : Nat) / 2 = tens (index - finest) := by
  rw [gridStepCast, wholeCast, tens, zpow_sub₀ (by decide), zpow_natCast, zpow_natCast, pow_succ (2 : ℚ)]
  generalize (2 : ℚ) ^ 1074 = unit
  field_simp

theorem gridAttracts (point index : Nat) : roundsTo magnitude (point * gridStep index) (Nat.pow 10 finest) = true ↔
    Attracts magnitude (point * tens (index - finest)) := by
  rw [roundsToAttracts wholePositive, ← gridWidth, Nat.cast_mul, mul_div_assoc, mul_div_assoc]

def gridBelow (magnitude index : Nat) : Nat := 2 * scaled magnitude * Nat.pow 10 finest / gridStep index

theorem gridAround (magnitude index : Nat) : gridBelow magnitude index * tens (index - finest) ≤ scaled magnitude ∧
    (scaled magnitude : ℚ) < (gridBelow magnitude index + 1 : Nat) * tens (index - finest) := by
  have positive : (0 : ℚ) < (Nat.pow 10 finest : Nat) := by exact_mod_cast wholePositive
  have low := Nat.div_mul_le_self (2 * scaled magnitude * Nat.pow 10 finest) (gridStep index)
  have high := Nat.lt_div_mul_add (a := 2 * scaled magnitude * Nat.pow 10 finest) (gridStepPositive index)
  rw [← gridWidth, gridBelow]
  generalize gridStep index = step at *
  generalize Nat.pow 10 finest = whole at *
  generalize 2 * scaled magnitude * whole / step = below at *
  have lower : (below : ℚ) * step ≤ 2 * scaled magnitude * whole := by exact_mod_cast low
  have upper : (2 : ℚ) * scaled magnitude * whole < (below + 1 : Nat) * step := by
    rw [Nat.cast_succ, add_mul, one_mul]
    exact_mod_cast high
  rw [div_div, mul_div_assoc', mul_div_assoc', div_le_iff₀ (by positivity), lt_div_iff₀ (by positivity)]
  exact ⟨by linarith, by linarith⟩

theorem gridPointHits {index point : Nat} (found : gridPoint? magnitude index = some point) :
    Attracts magnitude (point * tens (index - finest)) := by
  rw [← gridAttracts]
  simp only [gridPoint?] at found
  split at found
  · split at found
    · rename_i both
      obtain rfl := Option.some.inj found
      exact (Bool.and_eq_true_iff.mp both).1
    · rename_i below _
      obtain rfl := Option.some.inj found
      exact below
  · split at found
    · rename_i above
      obtain rfl := Option.some.inj found
      exact above
    · contradiction

theorem gridPointMisses (some : 0 < magnitude) {index : Nat} (missed : gridPoint? magnitude index = none) (point : Nat) :
    ¬ Attracts magnitude (point * tens (index - finest)) := by
  obtain ⟨low, high⟩ := gridAround magnitude index
  have unit := (tensPositive (index - finest)).le
  simp only [gridPoint?] at missed
  split at missed
  · split at missed <;> exact absurd missed (Option.some_ne_none _)
  split at missed
  · exact absurd missed (Option.some_ne_none _)
  rename_i notBelow notAbove
  rw [gridAttracts] at notBelow notAbove
  intro attracts
  rcases Nat.lt_or_ge (gridBelow magnitude index) point with above | upTo
  · have order : ((gridBelow magnitude index + 1 : Nat) : ℚ) ≤ point := by exact_mod_cast above
    exact notAbove (attractsBetween (attractsItself some) attracts high.le (mul_le_mul_of_nonneg_right order unit))
  · have order : (point : ℚ) ≤ gridBelow magnitude index := by exact_mod_cast upTo
    exact notBelow (attractsBetween attracts (attractsItself some) (mul_le_mul_of_nonneg_right order unit) low)

theorem finestNarrow : tens ((0 : Nat) - finest) ≤ 1 / 2 := by
  have narrow : gridStep 0 ≤ Nat.pow 10 finest := by decide +kernel
  rw [← gridWidth]
  refine div_le_div_of_nonneg_right (div_le_one_of_le₀ ?_ (Nat.cast_nonneg _)) two_pos.le
  exact_mod_cast narrow

theorem finestHits (some : 0 < magnitude) : gridPoint? magnitude 0 ≠ none := by
  intro missed
  obtain ⟨low, high⟩ := gridAround magnitude 0
  have misses := gridPointMisses some missed (gridBelow magnitude 0)
  have narrow := finestNarrow
  generalize tens ((0 : Nat) - finest) = width at *
  have previous : (scaled (magnitude - 1) : ℚ) + 1 ≤ scaled magnitude := by
    exact_mod_cast scaledRises (Nat.sub_lt some Nat.one_pos)
  have above : (lowEdge magnitude : ℚ) / 2 < gridBelow magnitude 0 * width := by
    rw [Nat.cast_succ] at high
    rw [lowEdgeCast]
    linarith
  exact misses (attractsInside above (low.trans_lt (scaledUnder magnitude)))

theorem coarsestAbove (magnitude : Nat) : (scaled magnitude : ℚ) < tens (coarsest magnitude - finest) := by
  have digits : scaled magnitude * Nat.pow 10 finest / Nat.pow 2 1074 < 10 ^ coarsest magnitude :=
    (Nat.length_toDigits_le_iff (by decide) Nat.length_toDigits_pos).mp (le_refl (coarsest magnitude))
  rw [tens, zpow_sub₀ (by decide), zpow_natCast, zpow_natCast, ← wholeCast]
  have positive : (0 : ℚ) < (Nat.pow 10 finest : Nat) := by exact_mod_cast wholePositive
  generalize coarsest magnitude = length at *
  generalize 1074 = places at *
  generalize Nat.pow 10 finest = whole at *
  rw [Nat.pow_eq, Nat.div_lt_iff_lt_mul (Nat.pow_pos (by decide))] at digits
  rw [div_mul_eq_mul_div, lt_div_iff₀ positive]
  exact_mod_cast digits

theorem coarserMisses (some : 0 < magnitude) {exponent : ℤ} (coarser : coarsest magnitude - finest < exponent)
    (point : Nat) : ¬ Attracts magnitude (point * tens exponent) := by
  intro attracts
  have below := attracts.below
  have first : (1 : ℚ) ≤ point := by
    have positive := pos_of_mul_pos_left (attractedPositive some attracts) (tensPositive exponent).le
    exact_mod_cast positive
  have under : 10 * (scaled magnitude : ℚ) < tens exponent := by
    have next := tensRise (by omega : (coarsest magnitude : ℤ) - finest + (1 : Nat) ≤ exponent)
    rw [tensShift] at next
    linarith [coarsestAbove magnitude]
  have double : (scaled (magnitude + 1) : ℚ) ≤ 2 * scaled magnitude := by exact_mod_cast scaledDouble some
  have product := mul_le_mul_of_nonneg_right first (tensPositive exponent).le
  rw [highEdgeCast] at below
  have size : (0 : ℚ) ≤ scaled magnitude := Nat.cast_nonneg _
  linarith

structure IsCoarsest (magnitude point : Nat) (exponent : ℤ) : Prop where
  attracts : Attracts magnitude (point * tens exponent)
  coarsest : ∀ (other : Nat) (coarser : ℤ), exponent < coarser → ¬ Attracts magnitude (other * tens coarser)

theorem searchFinds (some : 0 < magnitude) (index : Nat)
    (beyond : ∀ (other : Nat) (coarser : ℤ), index - finest < coarser → ¬ Attracts magnitude (other * tens coarser)) :
    ∃ (point found : Nat), search magnitude index = gridDecimal point found ∧
      IsCoarsest magnitude point (found - finest) := by
  induction index with
  | zero =>
    obtain ⟨point, found⟩ := Option.ne_none_iff_exists'.mp (finestHits some)
    exact ⟨point, 0, by rw [search, found, Option.getD_some], gridPointHits found, beyond⟩
  | succ index ih =>
    rw [search]
    split
    · rename_i point found
      exact ⟨point, index + 1, rfl, gridPointHits found, beyond⟩
    · rename_i missed
      refine ih fun other coarser above => ?_
      rcases eq_or_lt_of_le (Int.add_one_le_of_lt above) with rfl | far
      · rw [sub_add_eq_add_sub, ← Nat.cast_succ]
        exact gridPointMisses some missed other
      · exact beyond other coarser (by omega)

theorem shortestFound (some : 0 < magnitude) : ∃ (point index : Nat), shortest magnitude = gridDecimal point index ∧
    IsCoarsest magnitude point (index - finest) := by
  rw [shortest, if_neg some.ne']
  exact searchFinds some _ fun other _ coarser => coarserMisses some coarser other

section
variable {point : Nat} {exponent : ℤ}

theorem pointEnds (grid : IsCoarsest magnitude point exponent) : point % 10 ≠ 0 := by
  intro ended
  obtain ⟨other, rfl⟩ := Nat.dvd_of_mod_eq_zero ended
  have same : (other : ℚ) * tens (exponent + (1 : Nat)) = (10 * other : Nat) * tens exponent := by
    rw [tensShift, Nat.cast_mul, Nat.cast_ofNat]
    ring
  exact grid.coarsest other _ (lt_add_one exponent) (same ▸ grid.attracts)

/- With fewer digits there would be a power of ten between the two, which is on a coarser grid. -/
theorem pointLeast (some : 0 < magnitude) (grid : IsCoarsest magnitude point exponent) {core count : Nat}
    {other : ℤ} (attracts : Attracts magnitude (core * tens other)) (few : core < 10 ^ count) : point < 10 ^ count := by
  by_contra many
  have finer : other ≤ exponent := not_lt.mp fun coarser => grid.coarsest core other coarser attracts
  have least : (core : ℚ) ≤ 10 ^ count := by exact_mod_cast few.le
  have most : (10 : ℚ) ^ count ≤ point := by exact_mod_cast not_lt.mp many
  have between : Attracts magnitude ((1 : Nat) * tens (exponent + count)) := by
    rw [Nat.cast_one, one_mul, tensShift]
    have low := mul_le_mul least (tensRise finer) (tensPositive other).le (by positivity)
    exact attractsBetween attracts grid.attracts low (mul_le_mul_of_nonneg_right most (tensPositive exponent).le)
  have zero : count = 0 := by
    by_contra longer
    exact grid.coarsest 1 _ (by omega) between
  -- What has no digits is zero.
  have nothing : core = 0 := by
    rw [zero] at few
    omega
  have positive := attractedPositive some attracts
  rw [nothing, Nat.cast_zero, zero_mul] at positive
  exact lt_irrefl _ positive

end

end

end LoxLexer.Double

/-
**Marks with a tolerance.**

A mark is a place on the number line together with the distance at which it still passes for
another mark. Two marks compare `eq` when the larger of their tolerances covers the distance between
their places. Such an equality is not transitive: a wide mark may equal two narrow ones that differ.

* `window_contract`: the contract of a comparator holds all the same.
-/

import OrderedCollections.Comparator

namespace OrderedCollections

/-- A place on the number line and the distance within which it passes for another. -/
structure Mark where
  place : Int64
  tolerance : UInt64
  deriving DecidableEq, Repr

/-- Marks stand in the order of their places, those of one place in the order of their
tolerances. -/
instance : Ord Mark where
  compare first second :=
    (compare first.place second.place).then (compare first.tolerance second.tolerance)

namespace Comparator

/-- Marks within the larger tolerance are equal, others stand as their places do. -/
def window : Comparator Mark :=
  fun first second =>
    let distance := (first.place.toInt - second.place.toInt).natAbs
    if distance ≤ max first.tolerance.toNat second.tolerance.toNat then .eq
    else compare first.place second.place

/-- The order of `window`, read from the far end. -/
def windowDescending : Comparator Mark :=
  fun first second => window second first

theorem compare_place (first second : Mark) :
    compare first.place second.place = compare first.place.toInt second.place.toInt := by
  simp only [compare, compareOfLessAndEq, Int64.lt_iff_toInt_lt, ← Int64.toInt_inj]

/-- One mark is above another if it stands there, further away than either tolerance. -/
theorem window_eq_gt {first second : Mark} : window first second = .gt ↔
    first.tolerance.toNat < first.place.toInt - second.place.toInt ∧
      second.tolerance.toNat < first.place.toInt - second.place.toInt := by
  unfold window
  rw [compare_place]
  by_cases near : (first.place.toInt - second.place.toInt).natAbs ≤
      max first.tolerance.toNat second.tolerance.toNat
  · simp only [near, if_true, reduceCtorEq, false_iff]
    omega
  · simp only [near, if_false, Int.compare_eq_gt]
    omega

/-- A tolerance keeps the contract of a comparator. -/
theorem window_contract : Contract window where
  swap_eq first second := by
    unfold window
    rw [compare_place, compare_place, Nat.max_comm second.tolerance.toNat]
    have symmetric : (second.place.toInt - first.place.toInt).natAbs =
        (first.place.toInt - second.place.toInt).natAbs := by omega
    rw [symmetric]
    simp only [apply_ite Ordering.swap, Ordering.swap_eq, Int.compare_swap]
  gt_trans upper lower := by
    rw [window_eq_gt] at upper lower ⊢
    omega

/-- A wide mark equals two narrow ones that differ. -/
example :
    window ⟨0, 0⟩ ⟨1, 1⟩ = .eq ∧ window ⟨1, 1⟩ ⟨2, 0⟩ = .eq ∧ window ⟨0, 0⟩ ⟨2, 0⟩ = .lt := by
  decide

end Comparator

end OrderedCollections

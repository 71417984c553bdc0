/-
**Comparators of integers.**

Total preorders that forget part of the number, total orders that are not the natural one, and
functions that are no order at all. Each reads its arguments as 64-bit numbers: differences wrap.

* `residue_totalPreorder`: comparing by the remainder keeps the laws of the integers, and the numbers of
  one remainder form a class.
* `cyclic`, `parityReversed`: functions that are no order.
-/

import OrderedCollections.Comparator

namespace OrderedCollections.Comparator

/-- Numbers are compared by their remainder, which is never negative. -/
def residue (modulus : Int) : Comparator Int64 :=
  pullback (fun number => number.toInt % modulus) ascend

theorem ascend_totalPreorder : TotalPreorder (ascend : Comparator Int) where
  swap_eq first second := Int.compare_swap first second
  gt_trans upper lower := by
    unfold ascend at upper lower ⊢
    rw [Int.compare_eq_gt] at upper lower ⊢
    exact Int.lt_trans lower upper
  eq_trans upper lower := by
    unfold ascend at upper lower ⊢
    rw [Int.compare_eq_eq] at upper lower ⊢
    exact upper.trans lower

theorem residue_totalPreorder (modulus : Int) : TotalPreorder (residue modulus) :=
  totalPreorder_pullback ascend_totalPreorder _

/-- Numbers are compared by their distance from zero. -/
def magnitude : Comparator Int64 :=
  pullback (fun number => number.toInt.natAbs) ascend

/-- The even numbers stand before the odd ones, each kind in its natural order. -/
def evensFirst : Comparator Int64 :=
  andThen (residue 2) ascend

/-- The remainder by three of the wrapped difference decides: zero is `eq`, one is `gt`, two is
`lt`. So two is above one, one above zero and zero above two. -/
def cyclic : Comparator Int64 :=
  fun first second =>
    match (first - second).toInt % 3 with
    | 0 => .eq
    | 1 => .gt
    | _ => .lt

/-- The low byte of the difference, read as a signed number, is compared with zero. -/
def ring : Comparator Int64 :=
  fun first second => compare (first - second).toInt8 0

/-- Numbers of one parity stand in their natural order, numbers of different parity in the
reverse of it. -/
def parityReversed : Comparator Int64 :=
  fun first second =>
    if first.toInt % 2 = second.toInt % 2 then compare first second else compare second first

end OrderedCollections.Comparator

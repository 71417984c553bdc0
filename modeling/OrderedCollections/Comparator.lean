/-
**Comparators, and the laws a caller promises.**

Every collection of this library is ordered by a comparator: a pure function that says how its first
argument stands to its second. Nothing in a collection needs the function to be an order; what a
collection guarantees beyond its own structure depends on two grades of laws.

* `Comparator.Contract`: turning the arguments around turns the answer around, and `gt` is
  transitive. This is what every caller is asked for. Elements that compare `eq` need not form
  classes: a tolerance is allowed.
* `Comparator.TotalPreorder`: moreover `eq` is transitive, so that equal elements do form classes.
* `Contract.gt_iff_lt`, `Contract.lt_trans`: what follows for `lt`.
* `TotalPreorder.congr_right`: equal elements stand the same to every other.
* `Comparator.contract_pullback`, `Comparator.totalPreorder_pullback`: comparing elements by a key
  keeps either grade.
-/

namespace OrderedCollections

/-- A comparator says how its first argument stands to its second. -/
abbrev Comparator (α : Type) := α → α → Ordering

namespace Comparator

variable {α β : Type}

/-- The natural order of the type. -/
def ascend [Ord α] : Comparator α :=
  fun first second => compare first second

/-- The natural order of the type, read from the far end. -/
def descend [Ord α] : Comparator α :=
  fun first second => compare second first

/-- The comparator that gives the same answer to every question. -/
def constant (answer : Ordering) : Comparator α :=
  fun _ _ => answer

/-- Elements are compared by a key. -/
def pullback (key : α → β) (cmp : Comparator β) : Comparator α :=
  fun first second => cmp (key first) (key second)

/-- The second comparator decides where the first one answers `eq`. -/
def andThen (major minor : Comparator α) : Comparator α :=
  fun first second => (major first second).then (minor first second)

/-- What every caller promises of a comparator. -/
structure Contract (cmp : Comparator α) : Prop where
  /-- Turning the arguments around turns the answer around. -/
  swap_eq : ∀ first second, (cmp first second).swap = cmp second first
  /-- What is above something above a third is above the third. -/
  gt_trans : ∀ {first second third},
    cmp first second = .gt → cmp second third = .gt → cmp first third = .gt

namespace Contract

variable {cmp : Comparator α} (contract : Contract cmp)
include contract

theorem gt_iff_lt {first second : α} : cmp first second = .gt ↔ cmp second first = .lt := by
  rw [← contract.swap_eq first second]
  cases cmp first second <;> decide

theorem eq_comm {first second : α} : cmp first second = .eq ↔ cmp second first = .eq := by
  rw [← contract.swap_eq first second]
  cases cmp first second <;> decide

theorem refl (element : α) : cmp element element = .eq := by
  have swapped := contract.swap_eq element element
  cases outcome : cmp element element with
  | eq => rfl
  | lt => rw [outcome] at swapped; cases swapped
  | gt => rw [outcome] at swapped; cases swapped

theorem lt_trans {first second third : α} (lower : cmp first second = .lt)
    (upper : cmp second third = .lt) : cmp first third = .lt :=
  contract.gt_iff_lt.mp (contract.gt_trans (contract.gt_iff_lt.mpr upper)
    (contract.gt_iff_lt.mpr lower))

end Contract

/-- A comparator whose equal elements form classes. -/
structure TotalPreorder (cmp : Comparator α) : Prop extends Contract cmp where
  /-- Two elements equal to a third are equal to each other. -/
  eq_trans : ∀ {first second third},
    cmp first second = .eq → cmp second third = .eq → cmp first third = .eq

/-- Elements that compare equal stand the same to every other. -/
theorem TotalPreorder.congr_right {cmp : Comparator α} (preorder : TotalPreorder cmp)
    {first second : α} (equal : cmp first second = .eq) (other : α) :
    cmp other first = cmp other second := by
  have belowBoth : ∀ {near far : α}, cmp near far = .eq → cmp other near = .lt →
      cmp other far = .lt := by
    intro near far same below
    cases outcome : cmp other far with
    | lt => rfl
    | eq =>
      have back := preorder.eq_trans outcome (preorder.eq_comm.mp same)
      rw [below] at back
      cases back
    | gt =>
      have apart := preorder.gt_trans (preorder.gt_iff_lt.mpr below) outcome
      rw [same] at apart
      cases apart
  cases outcome : cmp other first with
  | lt => exact (belowBoth equal outcome).symm
  | eq => exact (preorder.eq_trans outcome equal).symm
  | gt =>
    cases outcome' : cmp other second with
    | gt => rfl
    | lt => rw [belowBoth (preorder.eq_comm.mp equal) outcome'] at outcome; cases outcome
    | eq =>
      rw [preorder.eq_trans outcome' (preorder.eq_comm.mp equal)] at outcome
      cases outcome

theorem contract_pullback {cmp : Comparator β} (contract : Contract cmp) (key : α → β) :
    Contract (pullback key cmp) where
  swap_eq first second := contract.swap_eq (key first) (key second)
  gt_trans := contract.gt_trans

theorem totalPreorder_pullback {cmp : Comparator β} (preorder : TotalPreorder cmp) (key : α → β) :
    TotalPreorder (pullback key cmp) where
  toContract := contract_pullback preorder.toContract key
  eq_trans := preorder.eq_trans

end Comparator

end OrderedCollections

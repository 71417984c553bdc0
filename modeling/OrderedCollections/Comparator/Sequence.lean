/-
**Comparators of sequences.**

The natural order of sequences is lexicographic, a beginning of a sequence being smaller than the
whole. The comparators below look at the length or at the last item alone.
-/

import OrderedCollections.Comparator

namespace OrderedCollections.Comparator

variable {α : Type}

/-- Sequences are compared by their length. -/
def itemCount : Comparator (List α) :=
  pullback List.length ascend

/-- Sequences are compared by their last item; the empty sequence is smallest. -/
def lastItem [Ord α] : Comparator (List α) :=
  fun first second =>
    match first.getLast?, second.getLast? with
    | none, none => .eq
    | none, some _ => .lt
    | some _, none => .gt
    | some last, some other => compare last other

end OrderedCollections.Comparator

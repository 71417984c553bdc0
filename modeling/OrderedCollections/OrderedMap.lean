/-
**What all ordered maps offer.**

The point operations that every ordered map has, whatever it is made of. A map may say for itself
how to find out whether a key is present and whether the map is empty; otherwise both follow from
the other operations.

* `Bare`: a map known by its required operations alone.
-/

import OrderedCollections.Checked

namespace OrderedCollections

/-- The point operations of an ordered map. -/
class OrderedMap (μ : Type) (κ ν : outParam Type) where
  /-- Puts a value under a key: the value that it replaces, and the map. -/
  put : κ → ν → μ → Checked (Option ν × μ)
  /-- The value of a key. -/
  get? : κ → μ → Checked (Option ν)
  /-- The value of a key after a change, if the key is present, and the map after it. -/
  modify : κ → (ν → ν) → μ → Checked (Option ν × μ)
  /-- Removes the entry of a key: its value, if the key is present, and the map without it. -/
  remove : κ → μ → Checked (Option ν × μ)
  /-- The number of entries. -/
  size : μ → Nat
  /-- Whether a key is present. -/
  contains : κ → μ → Checked Bool := fun key map => return (← get? key map).isSome
  /-- Whether there are no entries. -/
  isEmpty : μ → Bool := fun map => size map == 0

/-- A map known by its required operations alone. -/
structure Bare (μ : Type) where
  map : μ

namespace Bare

variable {μ κ ν : Type}

instance [OrderedMap μ κ ν] : OrderedMap (Bare μ) κ ν where
  put key value bare := do
    let (before, after) ← OrderedMap.put key value bare.map
    return (before, ⟨after⟩)
  get? key bare := OrderedMap.get? key bare.map
  modify key change bare := do
    let (value, after) ← OrderedMap.modify key change bare.map
    return (value, ⟨after⟩)
  remove key bare := do
    let (value, after) ← OrderedMap.remove key bare.map
    return (value, ⟨after⟩)
  size bare := OrderedMap.size bare.map

end Bare

end OrderedCollections

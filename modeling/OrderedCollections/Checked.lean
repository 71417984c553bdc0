/-
**Operations that may run into a fault.**

The linked structures of this library follow keys, count steps and subtract spans. On a structure
whose links are in order nothing can go wrong on the way; the operations do not take this for
granted. Each one answers with a result or with the fault that it ran into, and that no fault ever
occurs is a theorem about the structure, not an assumption of the code.

* `Fault`: what can go wrong.
* `Checked`: a result or a fault.
* `Checked.minus`: a subtraction that does not stop at zero by itself.
-/

namespace OrderedCollections

/-- What an operation runs into on a structure whose links are not in order. -/
inductive Fault where
  /-- A key was followed under which no node is stored. -/
  | vacantKey
  /-- A level was asked for that a node or the header does not have. -/
  | missingLevel
  /-- A count was to go below zero. -/
  | underflow
  /-- A loop took more rounds than there are nodes. -/
  | endless
  /-- The number of stored nodes is not the one kept count of. -/
  | miscounted
  deriving DecidableEq, Repr

/-- A result, or the fault that was run into. -/
abbrev Checked (α : Type) := Except Fault α

namespace Checked

variable {α β : Type}

/-- The item of an option, or a fault where there is none. -/
def ofOption (fault : Fault) : Option α → Checked α
  | some item => .ok item
  | none => .error fault

/-- The difference of two counts, where it is one. -/
def minus (count amount : Nat) : Checked Nat :=
  if amount ≤ count then .ok (count - amount) else .error .underflow

@[simp] theorem ok_bind (item : α) (next : α → Checked β) :
    (Except.ok item : Checked α) >>= next = next item := rfl

@[simp] theorem pure_eq_ok (item : α) : (pure item : Checked α) = .ok item := rfl

/-- A step and the one after it come to a result only if both do. -/
theorem bind_eq_ok {first : Checked α} {next : α → Checked β} {result : β} :
    first >>= next = .ok result ↔ ∃ item, first = .ok item ∧ next item = .ok result := by
  cases first with
  | error fault => exact iff_of_false nofun nofun
  | ok item => simp

theorem bind_eq_bind {first first' : Checked α} {next next' : α → Checked β}
    (same : first = first') (onward : ∀ item, next item = next' item) :
    first >>= next = first' >>= next' := by
  rw [same]
  exact bind_congr onward

@[simp] theorem ofOption_some (fault : Fault) (item : α) :
    ofOption fault (some item) = .ok item := rfl

theorem ofOption_eq_ok {fault : Fault} {found : Option α} {item : α} :
    ofOption fault found = .ok item ↔ found = some item := by
  cases found with
  | none => simp [ofOption]
  | some other => simp

theorem minus_of_le {count amount : Nat} (enough : amount ≤ count) :
    minus count amount = .ok (count - amount) :=
  if_pos enough

end Checked

end OrderedCollections

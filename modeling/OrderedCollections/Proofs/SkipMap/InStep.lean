/-
**A skip map is a skip list with values.**

A map and a list that were built alike, and were asked for the same keys since, agree on what they
hold and on what comes next. Nothing is asked of the comparator: where it is no order, both go astray
at the same place. The values of the map can be kept in a plain sequence beside the list, each written
at the position that the list tells.

* `InStep`: what a map and a list have in common, and what the next operation does to both.
* `keyOperation?`: what an operation of a map is to a list of its keys.
* `Valued`: a list with a value beside each of its elements.
* `run_lockstep`: a run of a map, and that of a list on its keys.
-/

import Mathlib.Data.List.InsertIdx
import OrderedCollections.Comparator.Integer
import OrderedCollections.Proofs.SkipMap.Lockstep

namespace OrderedCollections.SkipMap

open SkipList

variable {κ ν ρ : Type} {σ τ : Type → Type} [NodeStore σ] [NodeStore τ]

/-- **A map and a list in step.** The map holds these entries, and the list holds their keys. The rank
of an element in the list tells where the map works. -/
structure InStep [RandomSource ρ] (map : SkipMap κ ν ρ σ) (list : SkipList κ ρ τ)
    (entries : List (κ × ν)) : Prop where
  entries_eq : map.entries = .ok entries
  elements_eq : list.elements = .ok (entries.map Prod.fst)
  size_eq : map.size = list.size
  height_eq : map.height = list.height
  /-- A put adds an entry where the list inserts the key, or replaces the value of the entry that the
  list finds. -/
  put : ∀ key value,
    (∃ after, ∃ entry : Entry κ ρ τ, ∃ rank, map.put key value = .ok (none, after) ∧
      list.insert key = .ok (.ok entry.id, entry.list) ∧ entry.rank = .ok (rank + 1) ∧
      after.entries = .ok (entries.insertIdx rank (key, value))) ∨
    ∃ after entry rank stored old, map.put key value = .ok (some old, after) ∧
      list.insert key = .ok (.error .duplicated, list) ∧ list.find key = .ok (.ok entry) ∧
      entry.rank = .ok (rank + 1) ∧ entries[rank]? = some (stored, old) ∧
      after.entries = .ok (entries.set rank (stored, value))
  /-- A removal takes out the entry that the list finds, and the list removes its key. -/
  remove : ∀ key,
    (∃ after after' entry rank stored value, map.remove key = .ok (some value, after) ∧
      list.remove key = .ok (some stored, after') ∧ list.find key = .ok (.ok entry) ∧
      entry.rank = .ok (rank + 1) ∧ entries[rank]? = some (stored, value) ∧
      after.entries = .ok (entries.eraseIdx rank)) ∨
    (map.remove key = .ok (none, map) ∧ list.remove key = .ok (none, list))
  /-- Reading a value and changing it go to the entry at the rank that the list answers. -/
  read : ∀ key,
    (∃ rank stored value, list.rank key = .ok (.ok (rank + 1)) ∧
      entries[rank]? = some (stored, value) ∧ map.get? key = .ok (some value) ∧
      map.contains key = .ok true ∧
      ∀ change, ∃ after, map.modify key change = .ok (some (change value), after) ∧
        after.entries = .ok (entries.set rank (stored, change value))) ∨
    (list.rank key = .ok (.error .notFound) ∧ map.get? key = .ok none ∧
      map.contains key = .ok false ∧ ∀ change, map.modify key change = .ok (none, map))
  first : map.first? = .ok entries.head? ∧
    told? list.front? = .ok (entries.head?.map fun entry => (entry.1, 1))
  last : map.last? = .ok entries.getLast? ∧
    told? list.back? = .ok (entries.getLast?.map fun entry => (entry.1, entries.length))

/-! ### Operations on keys, and values beside them -/

/-- What an operation of a map is to a list of its keys, if it is anything to it. -/
def keyOperation? : Operation κ ν → Option (SkipList.Operation κ)
  | .put key _ => some (.insert key)
  | .remove key => some (.remove key)
  | .clear => some .clear
  | _ => none

/-- A list with a value beside each of its elements. -/
structure Valued (κ ν ρ : Type) (τ : Type → Type := Slots) where
  list : SkipList κ ρ τ
  values : List ν

namespace Valued

/-- Makes one operation: the list says where, and the value there is written or goes away. -/
def perform [RandomSource ρ] (pair : Valued κ ν ρ τ) :
    Operation κ ν → Checked (Valued κ ν ρ τ)
  | .put key value => do
    let (outcome, after) ← pair.list.insert key
    match outcome with
    | .ok id =>
      return ⟨after, pair.values.insertIdx ((← (⟨after, id⟩ : Entry κ ρ τ).rank) - 1) value⟩
    | .error _ =>
      match ← pair.list.find key with
      | .ok entry => return ⟨after, pair.values.set ((← entry.rank) - 1) value⟩
      | .error _ => return ⟨after, pair.values⟩
  | .modify key change => do
    match ← pair.list.rank key with
    | .ok rank => return ⟨pair.list, pair.values.modify (rank - 1) change⟩
    | .error _ => return pair
  | .remove key => do
    match ← pair.list.find key with
    | .ok entry =>
      let (taken, after) ← pair.list.remove key
      match taken with
      | some _ => return ⟨after, pair.values.eraseIdx ((← entry.rank) - 1)⟩
      | none => return ⟨after, pair.values⟩
    | .error _ => return pair
  | .clear => return ⟨pair.list.clear, []⟩
  | _ => return pair

/-- Makes one operation after the other. -/
def run [RandomSource ρ] (pair : Valued κ ν ρ τ) :
    List (Operation κ ν) → Checked (Valued κ ν ρ τ)
  | [] => return pair
  | operation :: others => do
    let after ← pair.perform operation
    after.run others

end Valued

/-! ### One operation -/

section Step

variable [LawfulNodeStore σ] [LawfulNodeStore τ] [RandomSource ρ] {map : SkipMap κ ν ρ σ}
  {list : SkipList κ ρ τ} {row : List (Tower (κ × ν))} {keys : List (Tower κ)}

/-- A map and a list whose rows are matched are in step. -/
theorem Joint.inStep (joint : Joint map list row keys) :
    InStep map list (row.map Tower.value) where
  entries_eq := entries_spec joint.soundMap
  elements_eq := by rw [SkipList.elements_spec joint.soundList, joint.matched.keys_eq]
  size_eq := by rw [joint.soundMap.size_eq, joint.soundList.size_eq, joint.matched.length_eq]
  height_eq := joint.height_eq
  put key value := by
    rcases joint.put key value with
      ⟨after, entry, rank, row', keys', done, inserted, ranked, -, entries, jointAfter⟩ |
      ⟨after, entry, rank, stored, old, row', done, rejected, found, ranked, here, entries, jointAfter⟩
    · exact Or.inl ⟨after, entry, rank, done, inserted, ranked,
        by rw [entries_spec jointAfter.soundMap, entries]⟩
    · exact Or.inr ⟨after, entry, rank, stored, old, done, rejected, found, ranked, here,
        by rw [entries_spec jointAfter.soundMap, entries]⟩
  remove key := by
    rcases joint.remove key with
      ⟨after, after', entry, rank, stored, value, row', keys', done, done', found, ranked, here,
        entries, jointAfter⟩ | nothing
    · exact Or.inl ⟨after, after', entry, rank, stored, value, done, done', found, ranked, here,
        by rw [entries_spec jointAfter.soundMap, entries]⟩
    · exact Or.inr nothing
  read key := by
    rcases joint.read key with ⟨rank, stored, value, ranked, here, got, contained, changed⟩ | nothing
    · refine Or.inl ⟨rank, stored, value, ranked, here, got, contained, fun change => ?_⟩
      obtain ⟨after, row', done, entries, jointAfter⟩ := changed change
      exact ⟨after, done, by rw [entries_spec jointAfter.soundMap, entries]⟩
    · exact Or.inr nothing
  first := by
    refine ⟨by rw [first?_spec joint.soundMap, List.head?_map], ?_⟩
    rw [told?_front_spec joint.soundList, ← joint.matched.keys_eq, List.head?_map, Option.map_map]
    rfl
  last := by
    refine ⟨by rw [last?_spec joint.soundMap, List.getLast?_map], ?_⟩
    rw [told?_back_spec joint.soundList, ← joint.matched.keys_eq, List.getLast?_map, Option.map_map,
      List.length_map, joint.matched.length_eq]
    rfl

/-- What an operation makes of a map, of a list of its keys, and of the values beside the list. -/
structure StepsTo (map : SkipMap κ ν ρ σ) (list : SkipList κ ρ τ) (row : List (Tower (κ × ν)))
    (operation : Operation κ ν) (answer : Answer κ ν) (after : SkipMap κ ν ρ σ)
    (after' : SkipList κ ρ τ) (row' : List (Tower (κ × ν))) : Prop where
  performed : map.perform operation = .ok (answer, after)
  asked : ∀ asked ∈ keyOperation? operation, ∃ told, list.perform asked = .ok (told, after')
  unasked : keyOperation? operation = none → after' = list
  valued : Valued.perform ⟨list, (row.map Tower.value).map Prod.snd⟩ operation =
    .ok ⟨after', (row'.map Tower.value).map Prod.snd⟩

/-- An operation keeps a map and a list of its keys together. -/
def Joined (map : SkipMap κ ν ρ σ) (list : SkipList κ ρ τ) (row : List (Tower (κ × ν)))
    (operation : Operation κ ν) : Prop :=
  ∃ answer after after' row' keys', StepsTo map list row operation answer after after' row' ∧
    Joint after after' row' keys'

omit [LawfulNodeStore τ] in
/-- An operation that only reads is nothing to the list. -/
theorem Joint.joined_of_read (joint : Joint map list row keys) {operation : Operation κ ν}
    (reads : ∀ answer after row', Acts map.cmp operation (row, map.heights) answer (row', after) →
      row' = row ∧ after = map.heights)
    (nothing : keyOperation? operation = none)
    (valued : ∀ pair : Valued κ ν ρ τ, pair.perform operation = .ok pair) :
    Joined map list row operation := by
  obtain ⟨answer, after, row', performed, soundAfter, cmp, acts⟩ :=
    perform_spec joint.soundMap operation
  obtain ⟨rfl, heights⟩ := reads _ _ _ acts
  refine ⟨answer, after, list, row', keys,
    ⟨performed, fun asked same => ?_, fun _ => rfl, valued _⟩, soundAfter, joint.soundList,
    cmp.trans joint.cmp, heights.trans joint.heights, joint.matched⟩
  rw [nothing] at same
  cases same

theorem Joint.joined_put (joint : Joint map list row keys) (key : κ) (value : ν) :
    Joined map list row (.put key value) := by
  rcases joint.put key value with
    ⟨after, entry, rank, row', keys', done, inserted, ranked, ⟨told, tells⟩, entries, jointAfter⟩ |
    ⟨after, entry, rank, stored, old, row', done, rejected, found, ranked, -, entries, jointAfter⟩
  · refine ⟨.value none, after, entry.list, row', keys',
      ⟨?_, fun asked same => ?_, nofun, ?_⟩, jointAfter⟩
    · simp only [perform, done, Checked.ok_bind, Checked.pure_eq_ok]
    · obtain rfl := Option.some.inj same
      refine ⟨.entry (.ok told), ?_⟩
      simp only [SkipList.perform, inserted, tells, Checked.ok_bind, Checked.pure_eq_ok]
    · rw [entries, List.map_insertIdx]
      simp only [Valued.perform, inserted, ranked, Checked.ok_bind, Checked.pure_eq_ok,
        Nat.add_sub_cancel]
  · refine ⟨.value (some old), after, list, row', keys,
      ⟨?_, fun asked same => ?_, nofun, ?_⟩, jointAfter⟩
    · simp only [perform, done, Checked.ok_bind, Checked.pure_eq_ok]
    · obtain rfl := Option.some.inj same
      refine ⟨.entry (.error .duplicated), ?_⟩
      simp only [SkipList.perform, rejected, Checked.ok_bind, Checked.pure_eq_ok]
    · rw [entries, List.map_set]
      simp only [Valued.perform, rejected, found, ranked, Checked.ok_bind, Checked.pure_eq_ok,
        Nat.add_sub_cancel]

theorem Joint.joined_remove (joint : Joint map list row keys) (key : κ) :
    Joined map list row (.remove key) := by
  rcases joint.remove key with
    ⟨after, after', entry, rank, stored, value, row', keys', done, done', found, ranked, -, entries,
      jointAfter⟩ | ⟨done, done'⟩
  · refine ⟨.value (some value), after, after', row', keys',
      ⟨?_, fun asked same => ?_, nofun, ?_⟩, jointAfter⟩
    · simp only [perform, done, Checked.ok_bind, Checked.pure_eq_ok]
    · obtain rfl := Option.some.inj same
      refine ⟨.taken (some stored), ?_⟩
      simp only [SkipList.perform, done', Checked.ok_bind, Checked.pure_eq_ok]
    · rw [entries, ← List.eraseIdx_map]
      simp only [Valued.perform, found, done', ranked, Checked.ok_bind, Checked.pure_eq_ok,
        Nat.add_sub_cancel]
  · refine ⟨.value none, map, list, row, keys, ⟨?_, fun asked same => ?_, nofun, ?_⟩, joint⟩
    · simp only [perform, done, Checked.ok_bind, Checked.pure_eq_ok]
    · obtain rfl := Option.some.inj same
      refine ⟨.taken none, ?_⟩
      simp only [SkipList.perform, done', Checked.ok_bind, Checked.pure_eq_ok]
    · obtain ⟨_, _, -, -, -, ⟨_, _, -, -, found⟩ | ⟨-, found⟩⟩ :=
        SkipList.find_spec joint.soundList key
      all_goals simp only [Valued.perform, found, done', Checked.ok_bind, Checked.pure_eq_ok]

omit [LawfulNodeStore τ] in
theorem Joint.joined_modify (joint : Joint map list row keys) (key : κ) (change : ν → ν) :
    Joined map list row (.modify key change) := by
  rcases joint.read key with
    ⟨rank, stored, value, ranked, here, -, -, changed⟩ | ⟨ranked, -, -, unchanged⟩
  · obtain ⟨after, row', done, entries, jointAfter⟩ := changed change
    refine ⟨.value (some (change value)), after, list, row', keys,
      ⟨?_, nofun, fun _ => rfl, ?_⟩, jointAfter⟩
    · simp only [perform, done, Checked.ok_bind, Checked.pure_eq_ok]
    · have old : ((row.map Tower.value).map Prod.snd)[rank]? = some value := by
        rw [List.getElem?_map, here]
        rfl
      rw [entries, List.map_set]
      simp only [Valued.perform, ranked, Checked.ok_bind, Checked.pure_eq_ok, Nat.add_sub_cancel,
        List.modify_eq_set_getElem?, old, Option.map_eq_map, Option.map_some, Option.getD_some]
  · refine ⟨.value none, map, list, row, keys, ⟨?_, nofun, fun _ => rfl, ?_⟩, joint⟩
    · simp only [perform, unchanged change, Checked.ok_bind, Checked.pure_eq_ok]
    · simp only [Valued.perform, ranked, Checked.ok_bind, Checked.pure_eq_ok]

/-- **One operation** keeps a map and a list of its keys together. -/
theorem Joint.joined (joint : Joint map list row keys) (operation : Operation κ ν) :
    Joined map list row operation := by
  cases operation with
  | put key value => exact joint.joined_put key value
  | remove key => exact joint.joined_remove key
  | modify key change => exact joint.joined_modify key change
  | clear =>
    refine ⟨.done, map.clear, list.clear, [], [], ⟨rfl, fun asked same => ?_, nofun, rfl⟩,
      joint.clear⟩
    obtain rfl := Option.some.inj same
    exact ⟨.done, rfl⟩
  | get key => exact joint.joined_of_read (by rintro _ _ _ ⟨⟩; exact ⟨rfl, rfl⟩) rfl fun _ => rfl
  | contains key =>
    exact joint.joined_of_read (by rintro _ _ _ ⟨⟩; exact ⟨rfl, rfl⟩) rfl fun _ => rfl
  | first => exact joint.joined_of_read (by rintro _ _ _ ⟨⟩; exact ⟨rfl, rfl⟩) rfl fun _ => rfl
  | last => exact joint.joined_of_read (by rintro _ _ _ ⟨⟩; exact ⟨rfl, rfl⟩) rfl fun _ => rfl
  | size => exact joint.joined_of_read (by rintro _ _ _ ⟨⟩; exact ⟨rfl, rfl⟩) rfl fun _ => rfl
  | isEmpty => exact joint.joined_of_read (by rintro _ _ _ ⟨⟩; exact ⟨rfl, rfl⟩) rfl fun _ => rfl
  | entries => exact joint.joined_of_read (by rintro _ _ _ ⟨⟩; exact ⟨rfl, rfl⟩) rfl fun _ => rfl

end Step

/-! ### A whole run -/

section Run

variable [LawfulNodeStore σ] [LawfulNodeStore τ] [RandomSource ρ]

/-- A run on a map and a list with matched rows. -/
theorem run_joint {map : SkipMap κ ν ρ σ} {list : SkipList κ ρ τ} {row : List (Tower (κ × ν))}
    {keys : List (Tower κ)} (joint : Joint map list row keys) (operations : List (Operation κ ν)) :
    ∃ answers after told after' row' keys', map.run operations = .ok (answers, after) ∧
      list.run (operations.filterMap keyOperation?) = .ok (told, after') ∧
      Valued.run ⟨list, (row.map Tower.value).map Prod.snd⟩ operations =
        .ok ⟨after', (row'.map Tower.value).map Prod.snd⟩ ∧
      Joint after after' row' keys' := by
  induction operations generalizing map list row keys with
  | nil => exact ⟨[], map, [], list, row, keys, rfl, rfl, rfl, joint⟩
  | cons operation others ih =>
    obtain ⟨answer, middle, middle', row', keys', steps, jointMiddle⟩ := joint.joined operation
    obtain ⟨answers, after, told, after', row'', keys'', ran, ran', valued, jointAfter⟩ :=
      ih jointMiddle
    have valuedAll : Valued.run ⟨list, (row.map Tower.value).map Prod.snd⟩ (operation :: others) =
        .ok ⟨after', (row''.map Tower.value).map Prod.snd⟩ := by
      simp only [Valued.run, steps.valued, Checked.ok_bind, valued]
    cases asked : keyOperation? operation with
    | none =>
      rw [steps.unasked asked] at ran'
      refine ⟨answer :: answers, after, told, after', row'', keys'', ?_, ?_, valuedAll, jointAfter⟩
      · simp only [run, steps.performed, ran, Checked.ok_bind, Checked.pure_eq_ok]
      · rw [List.filterMap_cons_none asked, ran']
    | some operation' =>
      obtain ⟨reply, performed'⟩ := steps.asked operation' asked
      refine ⟨answer :: answers, after, reply :: told, after', row'', keys'', ?_, ?_, valuedAll,
        jointAfter⟩
      · simp only [run, steps.performed, ran, Checked.ok_bind, Checked.pure_eq_ok]
      · rw [List.filterMap_cons_some asked]
        simp only [SkipList.run, performed', ran', Checked.ok_bind, Checked.pure_eq_ok]

/-- **A skip map runs in lockstep with a skip list**, whatever the comparator, the options and the
random source answer. After every run of operations on the map, and of what they are to its keys on
the list, the two are in step; and the values of the map are those that were written one by one
beside the list, each at the position that the list told. -/
theorem run_lockstep (options : Options) (cmp : Comparator κ) (source : ρ)
    (operations : List (Operation κ ν)) :
    ∃ answers, ∃ map : SkipMap κ ν ρ σ, ∃ told, ∃ list : SkipList κ ρ τ, ∃ entries,
      (withSource options cmp source : SkipMap κ ν ρ σ).run operations = .ok (answers, map) ∧
        (SkipList.withSource options cmp source : SkipList κ ρ τ).run
          (operations.filterMap keyOperation?) = .ok (told, list) ∧
        Valued.run ⟨SkipList.withSource options cmp source, []⟩ operations =
          .ok ⟨list, entries.map Prod.snd⟩ ∧
        InStep map list entries := by
  have start : Joint (withSource options cmp source : SkipMap κ ν ρ σ)
      (SkipList.withSource options cmp source : SkipList κ ρ τ) [] [] :=
    ⟨sound_withSource options cmp source, SkipList.sound_withSource options cmp source, rfl, rfl, rfl⟩
  obtain ⟨answers, map, told, list, row, keys, ran, ran', valued, joint⟩ :=
    run_joint start operations
  exact ⟨answers, map, told, list, row.map Tower.value, ran, ran', valued, joint.inStep⟩

end Run

/-- A run under a comparator that is no order at all: it goes around in a circle. -/
theorem run_lockstep_cyclic :
    ∃ answers, ∃ map : SkipMap Int64 Nat KeyStream Slots, ∃ told,
      ∃ list : SkipList Int64 KeyStream Slots, ∃ entries,
      (withSource {} Comparator.cyclic (.ofSeed 0) : SkipMap Int64 Nat KeyStream Slots).run
          [.put 2 0, .put 1 1, .put 0 2, .put 5 3, .remove 1] = .ok (answers, map) ∧
        (SkipList.withSource {} Comparator.cyclic (.ofSeed 0) : SkipList Int64 KeyStream Slots).run
          [.insert 2, .insert 1, .insert 0, .insert 5, .remove 1] = .ok (told, list) ∧
        Valued.run ⟨SkipList.withSource {} Comparator.cyclic (.ofSeed 0), []⟩
            [.put 2 0, .put 1 1, .put 0 2, .put 5 3, .remove 1] =
          .ok ⟨list, entries.map Prod.snd⟩ ∧
        InStep map list entries := by
  obtain ⟨answers, map, told, list, entries, ran, ran', valued, inStep⟩ := run_lockstep {}
    Comparator.cyclic (KeyStream.ofSeed 0)
    [.put (2 : Int64) 0, .put 1 1, .put 0 2, .put 5 3, .remove 1]
  exact ⟨answers, map, told, list, entries, ran, ran', valued, inStep⟩

end OrderedCollections.SkipMap

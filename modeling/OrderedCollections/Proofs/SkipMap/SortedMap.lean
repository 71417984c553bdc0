/-
**A skip map as a sorted map.**

Under a comparator whose equal keys form classes, a skip map is a sequence of entries with strictly
ascending keys, one for each class. There are two ways down through the levels, one to the gap of a
key and one that stops at the first equal key met; in such a sequence both come to the one entry of
the class. What a map answers is told by the sequence alone and not by the heights that were drawn.

* `Entries.perform`, `Entries.run`: what operations do to a sequence of entries, and what they answer.
* `lastWritten`: the value last written under a key.
* `Entries.place_cases`: every key has its place among ascending entries.
* `Entries.get?_run`: the value of a key is the one last written under it.
* `acts_perform`: an operation of a map does just what it does to its entries.
* `run_sortedMap`: every run of a map is that of its entries.
-/

import OrderedCollections.Comparator.Integer
import OrderedCollections.Proofs.SkipMap.Ascending

namespace OrderedCollections.SkipMap

open SkipList

variable {κ ν : Type}

/-! ### Operations on entries -/

namespace Entries

/-- The value of a key. -/
def get? (cmp : Comparator κ) (key : κ) (entries : List (κ × ν)) : Option ν :=
  (entries.find? fun stored => cmp stored.1 key == .eq).map Prod.snd

/-- The entries with a change made to the value of a key. The stored key stays. -/
def modify (cmp : Comparator κ) (key : κ) (change : ν → ν) (entries : List (κ × ν)) :
    List (κ × ν) :=
  entries.map fun stored => if cmp stored.1 key = .eq then (stored.1, change stored.2) else stored

/-- The entries with a new one, behind those below it. -/
def insert (cmp : Comparator κ) (key : κ) (value : ν) (entries : List (κ × ν)) : List (κ × ν) :=
  entries.filter (fun stored => cmp stored.1 key == .lt) ++
    (key, value) :: entries.filter fun stored => cmp stored.1 key != .lt

/-- The entries with a value put under a key. -/
def put (cmp : Comparator κ) (key : κ) (value : ν) (entries : List (κ × ν)) : List (κ × ν) :=
  if (get? cmp key entries).isSome then modify cmp key (fun _ => value) entries
  else insert cmp key value entries

/-- The entries without that of a key. -/
def remove (cmp : Comparator κ) (key : κ) (entries : List (κ × ν)) : List (κ × ν) :=
  entries.filter fun stored => cmp stored.1 key != .eq

/-- Makes one operation on a sequence of entries: what is answered, and the sequence after it. -/
def perform (cmp : Comparator κ) (entries : List (κ × ν)) :
    Operation κ ν → Answer κ ν × List (κ × ν)
  | .put key value => (.value (get? cmp key entries), put cmp key value entries)
  | .get key => (.value (get? cmp key entries), entries)
  | .modify key change => (.value ((get? cmp key entries).map change), modify cmp key change entries)
  | .contains key => (.truth (get? cmp key entries).isSome, entries)
  | .remove key => (.value (get? cmp key entries), remove cmp key entries)
  | .clear => (.done, [])
  | .first => (.entry entries.head?, entries)
  | .last => (.entry entries.getLast?, entries)
  | .size => (.count entries.length, entries)
  | .isEmpty => (.truth entries.isEmpty, entries)
  | .entries => (.sequence entries, entries)

/-- Makes one operation after the other: the answers, and the sequence at the end. -/
def run (cmp : Comparator κ) (entries : List (κ × ν)) :
    List (Operation κ ν) → List (Answer κ ν) × List (κ × ν)
  | [] => ([], entries)
  | operation :: others =>
    let performed := perform cmp entries operation
    let later := run cmp performed.2 others
    (performed.1 :: later.1, later.2)

end Entries

/-- What an operation leaves written under a key. -/
def written (cmp : Comparator κ) (key : κ) (before : Option ν) : Operation κ ν → Option ν
  | .put other value => if cmp other key = .eq then some value else before
  | .modify other change => if cmp other key = .eq then before.map change else before
  | .remove other => if cmp other key = .eq then none else before
  | .clear => none
  | _ => before

/-- The value last written under a key, since the class of the key was last removed. -/
def lastWritten (cmp : Comparator κ) (key : κ) (operations : List (Operation κ ν)) : Option ν :=
  operations.foldl (written cmp key) none

/-! ### Operations in their place -/

namespace Entries

section Places

variable {cmp : Comparator κ} {key : κ} {front back entries : List (κ × ν)} {entry : κ × ν}

theorem get?_insert_of_ne (entry : κ × ν) (different : cmp entry.1 key ≠ .eq) :
    get? cmp key (front ++ entry :: back) = get? cmp key (front ++ back) := by
  have skipped : ¬(cmp entry.1 key == .eq) = true := fun same => different (beq_iff_eq.mp same)
  unfold get?
  rw [List.find?_append, List.find?_append,
    List.find?_cons_of_neg (p := fun stored : κ × ν => cmp stored.1 key == .eq) skipped]

theorem get?_eq_none (different : ∀ stored ∈ entries, cmp stored.1 key ≠ .eq) :
    get? cmp key entries = none := by
  have none : entries.find? (fun stored => cmp stored.1 key == .eq) = none :=
    List.find?_eq_none.mpr fun stored member same => different stored member (beq_iff_eq.mp same)
  rw [get?, none]
  rfl

/-- The entry of a class has the value of its keys. -/
theorem get?_present (entry : κ × ν) (around : Around cmp key front back)
    (equal : cmp entry.1 key = .eq) :
    get? cmp key (front ++ entry :: back) = some entry.2 := by
  have none : front.find? (fun stored => cmp stored.1 key == .eq) = none :=
    List.find?_eq_none.mpr fun stored member same =>
      around.ne_eq stored (List.mem_append_left _ member) (beq_iff_eq.mp same)
  unfold get?
  rw [List.find?_append, none, List.find?_cons_of_pos (p := fun stored : κ × ν =>
    cmp stored.1 key == .eq) (beq_iff_eq.mpr equal)]
  rfl

theorem modify_eq_self (different : ∀ stored ∈ entries, cmp stored.1 key ≠ .eq) (change : ν → ν) :
    modify cmp key change entries = entries := by
  unfold modify
  refine (List.map_congr_left fun stored member => ?_).trans (List.map_id entries)
  exact if_neg (different stored member)

/-- A change touches the entry of a class alone. -/
theorem modify_present (around : Around cmp key front back) (equal : cmp entry.1 key = .eq)
    (change : ν → ν) : modify cmp key change (front ++ entry :: back) =
      front ++ (entry.1, change entry.2) :: back := by
  have before : modify cmp key change front = front :=
    modify_eq_self (fun stored member => around.ne_eq stored (List.mem_append_left _ member)) change
  have behind : modify cmp key change back = back :=
    modify_eq_self (fun stored member => around.ne_eq stored (List.mem_append_right _ member)) change
  unfold modify at before behind ⊢
  rw [List.map_append, List.map_cons, before, behind, if_pos equal]

theorem put_present (around : Around cmp key front back) (equal : cmp entry.1 key = .eq)
    (value : ν) : put cmp key value (front ++ entry :: back) = front ++ (entry.1, value) :: back := by
  unfold put
  rw [get?_present entry around equal, Option.isSome_some, if_pos rfl, modify_present around equal]

/-- A value put under a key without an entry makes one in the place of the key. -/
theorem put_absent (around : Around cmp key front back) (value : ν) :
    put cmp key value (front ++ back) = front ++ (key, value) :: back := by
  have isBelow : ∀ stored ∈ front, (cmp stored.1 key == .lt) = true :=
    fun stored member => beq_iff_eq.mpr (around.below stored member)
  have notBelow : ∀ stored ∈ back, ¬(cmp stored.1 key == .lt) = true := by
    intro stored member
    rw [around.above stored member]
    decide
  have notBehind : ∀ stored ∈ front, ¬(cmp stored.1 key != .lt) = true := by
    intro stored member
    rw [around.below stored member]
    decide
  have isBehind : ∀ stored ∈ back, (cmp stored.1 key != .lt) = true := by
    intro stored member
    rw [around.above stored member]
    decide
  rw [put, get?_eq_none around.ne_eq, Option.isSome_none, if_neg Bool.false_ne_true, insert,
    List.filter_append, List.filter_append, List.filter_eq_self.mpr isBelow,
    List.filter_eq_nil_iff.mpr notBelow, List.filter_eq_nil_iff.mpr notBehind,
    List.filter_eq_self.mpr isBehind, List.append_nil, List.nil_append]

theorem remove_eq_self (different : ∀ stored ∈ entries, cmp stored.1 key ≠ .eq) :
    remove cmp key entries = entries :=
  List.filter_eq_self.mpr fun stored member => bne_iff_ne.mpr (different stored member)

/-- Removing takes out the entry of a class alone. -/
theorem remove_present (around : Around cmp key front back) (equal : cmp entry.1 key = .eq) :
    remove cmp key (front ++ entry :: back) = front ++ back := by
  have gone : ¬(cmp entry.1 key != .eq) = true := by
    rw [equal]
    decide
  have others := remove_eq_self around.ne_eq
  unfold remove at others ⊢
  rw [List.filter_append,
    List.filter_cons_of_neg (p := fun stored : κ × ν => cmp stored.1 key != .eq) gone,
    ← List.filter_append, others]

/-- **Every key has its place among ascending entries**: that of the entry of its class, or one
between two entries. -/
theorem place_cases (preorder : cmp.TotalPreorder) (key : κ) (ascending : Ascending cmp entries) :
    (∃ front entry back, entries = front ++ entry :: back ∧ cmp entry.1 key = .eq ∧
      Around cmp key front back) ∨
    ∃ front back, entries = front ++ back ∧ Around cmp key front back := by
  induction entries with
  | nil => exact Or.inr ⟨[], [], rfl, List.forall_mem_nil _, List.forall_mem_nil _⟩
  | cons first others ih =>
    have fromStart : Ascending cmp ([] ++ first :: others) := ascending
    cases outcome : cmp first.1 key with
    | eq =>
      exact Or.inl ⟨[], first, others, rfl, outcome, around_of_equal preorder fromStart outcome⟩
    | gt =>
      refine Or.inr ⟨[], first :: others, rfl,
        around_of_gap preorder.toContract fromStart (by simp) fun stored isFirst => ?_⟩
      rw [← Option.some.inj isFirst]
      exact outcome
    | lt =>
      rcases ih (List.pairwise_cons.mp ascending).2 with
        ⟨front, entry, back, rfl, equal, around⟩ | ⟨front, back, rfl, around⟩
      · exact Or.inl ⟨first :: front, entry, back, rfl, equal,
          List.forall_mem_cons.mpr ⟨outcome, around.below⟩, around.above⟩
      · exact Or.inr ⟨first :: front, back, rfl,
          List.forall_mem_cons.mpr ⟨outcome, around.below⟩, around.above⟩

/-- **Operations leave ascending entries ascending.** -/
theorem ascending_perform (preorder : cmp.TotalPreorder) (operation : Operation κ ν)
    (ascending : Ascending cmp entries) : Ascending cmp (perform cmp entries operation).2 := by
  cases operation with
  | put key value =>
    show Ascending cmp (put cmp key value entries)
    rcases place_cases preorder key ascending with
      ⟨front, entry, back, rfl, equal, around⟩ | ⟨front, back, rfl, around⟩
    · rw [put_present around equal]
      exact ascending_withValue ascending value
    · rw [put_absent around]
      exact around.ascending_insert preorder.toContract ascending value
  | modify key change =>
    show Ascending cmp (modify cmp key change entries)
    rcases place_cases preorder key ascending with
      ⟨front, entry, back, rfl, equal, around⟩ | ⟨front, back, rfl, around⟩
    · rw [modify_present around equal]
      exact ascending_withValue ascending _
    · rw [modify_eq_self around.ne_eq]
      exact ascending
  | remove key => exact ascending.sublist List.filter_sublist
  | clear => exact List.Pairwise.nil
  | _ => exact ascending

theorem ascending_run (preorder : cmp.TotalPreorder) (operations : List (Operation κ ν))
    (ascending : Ascending cmp entries) : Ascending cmp (run cmp entries operations).2 := by
  induction operations generalizing entries with
  | nil => exact ascending
  | cons operation others ih => exact ih (ascending_perform preorder operation ascending)

/-! ### The value last written -/

/-- Keys of one class have one value. -/
theorem get?_congr (preorder : cmp.TotalPreorder) {other : κ} (same : cmp other key = .eq)
    (entries : List (κ × ν)) : get? cmp key entries = get? cmp other entries := by
  unfold get?
  simp only [preorder.congr_right same]

theorem ne_eq_of_ne (preorder : cmp.TotalPreorder) {other : κ} (different : cmp other key ≠ .eq)
    (equal : cmp entry.1 other = .eq) : cmp entry.1 key ≠ .eq :=
  fun same => different (preorder.eq_trans (preorder.eq_comm.mp equal) same)

/-- A value put under a key is the value of its class, and no other. -/
theorem get?_put (preorder : cmp.TotalPreorder) (ascending : Ascending cmp entries) (other : κ)
    (value : ν) : get? cmp key (put cmp other value entries) =
      if cmp other key = .eq then some value else get? cmp key entries := by
  rcases place_cases preorder other ascending with
    ⟨front, entry, back, rfl, equal, around⟩ | ⟨front, back, rfl, around⟩
  · rw [put_present around equal]
    by_cases same : cmp other key = .eq
    · rw [if_pos same, get?_congr preorder same, get?_present (entry.1, value) around equal]
    · have apart : cmp entry.1 key ≠ .eq := ne_eq_of_ne preorder same equal
      rw [if_neg same, get?_insert_of_ne (entry.1, value) apart, get?_insert_of_ne entry apart]
  · have equal : cmp other other = .eq := preorder.refl other
    rw [put_absent around]
    by_cases same : cmp other key = .eq
    · rw [if_pos same, get?_congr preorder same, get?_present (other, value) around equal]
    · rw [if_neg same, get?_insert_of_ne (other, value) same]

/-- A change made to the value of a key is made to that of its class, and no other. -/
theorem get?_modify (preorder : cmp.TotalPreorder) (ascending : Ascending cmp entries) (other : κ)
    (change : ν → ν) : get? cmp key (modify cmp other change entries) =
      if cmp other key = .eq then (get? cmp key entries).map change else get? cmp key entries := by
  rcases place_cases preorder other ascending with
    ⟨front, entry, back, rfl, equal, around⟩ | ⟨front, back, rfl, around⟩
  · rw [modify_present around equal]
    by_cases same : cmp other key = .eq
    · rw [if_pos same, get?_congr preorder same, get?_congr preorder same,
        get?_present entry around equal, get?_present (entry.1, change entry.2) around equal]
      rfl
    · have apart : cmp entry.1 key ≠ .eq := ne_eq_of_ne preorder same equal
      rw [if_neg same, get?_insert_of_ne (entry.1, change entry.2) apart,
        get?_insert_of_ne entry apart]
  · rw [modify_eq_self around.ne_eq]
    by_cases same : cmp other key = .eq
    · rw [if_pos same, get?_congr preorder same, get?_eq_none around.ne_eq]
      rfl
    · rw [if_neg same]

/-- Removing a key takes the value from its class, and no other. -/
theorem get?_remove (preorder : cmp.TotalPreorder) (ascending : Ascending cmp entries) (other : κ) :
    get? cmp key (remove cmp other entries) =
      if cmp other key = .eq then none else get? cmp key entries := by
  rcases place_cases preorder other ascending with
    ⟨front, entry, back, rfl, equal, around⟩ | ⟨front, back, rfl, around⟩
  · rw [remove_present around equal]
    by_cases same : cmp other key = .eq
    · rw [if_pos same, get?_congr preorder same, get?_eq_none around.ne_eq]
    · rw [if_neg same, get?_insert_of_ne entry (ne_eq_of_ne preorder same equal)]
  · rw [remove_eq_self around.ne_eq]
    by_cases same : cmp other key = .eq
    · rw [if_pos same, get?_congr preorder same, get?_eq_none around.ne_eq]
    · rw [if_neg same]

/-- What an operation leaves written under a key is its value afterwards. -/
theorem get?_perform (preorder : cmp.TotalPreorder) (ascending : Ascending cmp entries)
    (operation : Operation κ ν) :
    get? cmp key (perform cmp entries operation).2 =
      written cmp key (get? cmp key entries) operation := by
  cases operation with
  | put other value => exact get?_put preorder ascending other value
  | modify other change => exact get?_modify preorder ascending other change
  | remove other => exact get?_remove preorder ascending other
  | _ => rfl

/-- **The value of a key is the one last written under it.** -/
theorem get?_run (preorder : cmp.TotalPreorder) (ascending : Ascending cmp entries)
    (operations : List (Operation κ ν)) :
    get? cmp key (run cmp entries operations).2 =
      operations.foldl (written cmp key) (get? cmp key entries) := by
  induction operations generalizing entries with
  | nil => rfl
  | cons operation others ih =>
    rw [List.foldl_cons, ← get?_perform preorder ascending operation]
    exact ih (ascending_perform preorder operation ascending)

end Places

end Entries

/-! ### One operation -/

section Perform

variable {ρ : Type} [RandomSource ρ] {cmp : Comparator κ}

/-- **The tower found for a key is that of its class**, if there is one. -/
theorem foundIn_value (preorder : cmp.TotalPreorder) (key : κ) {row : List (Tower (κ × ν))}
    (positive : ∀ tower ∈ row, 0 < tower.height) (ascending : Ascending cmp (row.map Tower.value)) :
    (foundIn cmp key row).map (fun found => found.2.1.value.2) =
      Entries.get? cmp key (row.map Tower.value) := by
  cases found : foundIn cmp key row with
  | some place =>
    obtain ⟨near, tower, far⟩ := place
    obtain ⟨rfl, equal⟩ := foundIn_eq_some positive found
    have around := around_of_tower preorder ascending equal
    rw [List.map_append, List.map_cons, Entries.get?_present _ around equal]
    rfl
  | none =>
    obtain ⟨front, back, rfl, below, above⟩ := foundIn_eq_none positive found
    have around := around_of_towers preorder.toContract ascending below above
    rw [List.map_append, Entries.get?_eq_none around.ne_eq]
    rfl

/-- **An operation of a map does just what it does to its entries.** -/
theorem acts_perform (preorder : cmp.TotalPreorder) {operation : Operation κ ν}
    {row row' : List (Tower (κ × ν))} {heights heights' : HeightGenerator ρ} {answer : Answer κ ν}
    (acts : Acts cmp operation (row, heights) answer (row', heights'))
    (positive : ∀ tower ∈ row, 0 < tower.height) (ascending : Ascending cmp (row.map Tower.value)) :
    Entries.perform cmp (row.map Tower.value) operation = (answer, row'.map Tower.value) := by
  have value := fun key => foundIn_value preorder key positive ascending
  cases acts with
  | added gap misses =>
    have around := around_of_misses preorder.toContract positive ascending gap misses
    rw [List.map_append, List.map_append, List.map_cons, Entries.perform,
      Entries.get?_eq_none around.ne_eq, Entries.put_absent around]
  | replaced gap equal =>
    have around := around_of_tower preorder ascending equal
    rw [List.map_append, List.map_cons, List.map_append, List.map_cons, Entries.perform,
      Entries.get?_present _ around equal, Entries.put_present around equal]
    rfl
  | got => rw [Entries.perform, ← value]
  | modified found =>
    obtain ⟨-, equal⟩ := foundIn_eq_some positive found
    have around := around_of_tower preorder ascending equal
    rw [List.map_append, List.map_cons, List.map_append, List.map_cons, Entries.perform,
      Entries.get?_present _ around equal, Entries.modify_present around equal]
    rfl
  | notModified nowhere =>
    obtain ⟨front, back, rfl, below, above⟩ := foundIn_eq_none positive nowhere
    have around := around_of_towers preorder.toContract ascending below above
    rw [List.map_append, Entries.perform, Entries.get?_eq_none around.ne_eq,
      Entries.modify_eq_self around.ne_eq]
    rfl
  | contained => rw [Entries.perform, ← value, Option.isSome_map]
  | removed gap equal =>
    have around := around_of_tower preorder ascending equal
    rw [List.map_append, List.map_cons, List.map_append, Entries.perform,
      Entries.get?_present _ around equal, Entries.remove_present around equal]
  | notRemoved gap misses =>
    have around := around_of_misses preorder.toContract positive ascending gap misses
    rw [List.map_append, Entries.perform, Entries.get?_eq_none around.ne_eq,
      Entries.remove_eq_self around.ne_eq]
  | cleared => rfl
  | first => rw [Entries.perform, List.head?_map]
  | last => rw [Entries.perform, List.getLast?_map]
  | size => rw [Entries.perform, List.length_map]
  | isEmpty => rw [Entries.perform, List.isEmpty_map]
  | entries => rfl

end Perform

/-! ### A whole run -/

section Run

variable {ρ : Type} {σ : Type → Type} [NodeStore σ] [LawfulNodeStore σ] [RandomSource ρ]
  {cmp : Comparator κ}

/-- A run on a sound map is that of its entries. -/
theorem run_entries (preorder : cmp.TotalPreorder) {map : SkipMap κ ν ρ σ}
    {row : List (Tower (κ × ν))} (sound : Sound map row) (same : map.cmp = cmp)
    (ascending : Ascending cmp (row.map Tower.value)) (operations : List (Operation κ ν)) :
    ∃ last : SkipMap κ ν ρ σ, ∃ row',
      map.run operations = .ok ((Entries.run cmp (row.map Tower.value) operations).1, last) ∧
        Sound last row' ∧ last.cmp = cmp ∧
        row'.map Tower.value = (Entries.run cmp (row.map Tower.value) operations).2 := by
  induction operations generalizing map row with
  | nil => exact ⟨map, row, rfl, sound, same, rfl⟩
  | cons operation others ih =>
    obtain ⟨answer, after, row', performed, soundAfter, cmpAfter, acts⟩ :=
      perform_spec sound operation
    rw [same] at acts
    have entries := acts_perform preorder acts sound.positive ascending
    have ascendingAfter := acts.ascending preorder.toContract sound.positive ascending
    obtain ⟨last, row'', ran, soundLast, cmpLast, entriesLast⟩ :=
      ih soundAfter (cmpAfter.trans same) ascendingAfter
    refine ⟨last, row'', ?_, soundLast, cmpLast, ?_⟩
    · simp only [run, performed, ran, Checked.ok_bind, Checked.pure_eq_ok, Entries.run, entries]
    · rw [entriesLast, Entries.run, entries]

/-- **Every run of a map is that of its entries**, which ascend strictly. The answers and the entries
at the end are told by the comparator and the operations alone: neither the options nor the random
source, and so none of the heights drawn, has a part in them. Every key then has the value last
written under its class. -/
theorem run_sortedMap (preorder : cmp.TotalPreorder) (options : Options) (source : ρ)
    (operations : List (Operation κ ν)) :
    ∃ map : SkipMap κ ν ρ σ,
      (withSource options cmp source : SkipMap κ ν ρ σ).run operations =
          .ok ((Entries.run cmp [] operations).1, map) ∧
        map.entries = .ok (Entries.run cmp [] operations).2 ∧
        map.size = (Entries.run cmp [] operations).2.length ∧
        Ascending cmp (Entries.run cmp [] operations).2 ∧
        ∀ key, map.get? key = .ok (lastWritten cmp key operations) ∧
          map.contains key = .ok (lastWritten cmp key operations).isSome ∧
          ∀ change, ∃ after,
            map.modify key change = .ok ((lastWritten cmp key operations).map change, after) := by
  have start : Sound (withSource options cmp source : SkipMap κ ν ρ σ) [] :=
    sound_withSource options cmp source
  have none : Ascending cmp (([] : List (Tower (κ × ν))).map Tower.value) := List.Pairwise.nil
  obtain ⟨map, row, ran, sound, same, entries⟩ := run_entries preorder start rfl none operations
  rw [List.map_nil] at ran entries
  have ascending := Entries.ascending_run preorder operations none
  rw [List.map_nil] at ascending
  refine ⟨map, ran, by rw [entries_spec sound, entries],
    by rw [← entries, List.length_map, sound.size_eq], ascending, fun key => ?_⟩
  have value : (foundIn map.cmp key row).map (fun found => found.2.1.value.2) =
      lastWritten cmp key operations := by
    rw [same, foundIn_value preorder key sound.positive (entries ▸ ascending), entries]
    exact Entries.get?_run preorder none operations
  refine ⟨by rw [get?_spec sound, value], ?_, fun change => ?_⟩
  · rw [contains_spec sound, ← value, Option.isSome_map]
  · rw [← value]
    rcases modify_spec sound key change with
      ⟨near, tower, far, after, -, found, done, -, -, -⟩ | ⟨nowhere, done⟩
    · exact ⟨after, by rw [done, found]; rfl⟩
    · exact ⟨map, by rw [done, nowhere]; rfl⟩

end Run

/-- Numbers by their remainder: the second put comes to the class of the first, whose key stays. -/
theorem run_sortedMap_residue :
    ∃ map : SkipMap Int64 Nat KeyStream Slots,
      (withSource {} (Comparator.residue 3) (.ofSeed 0) : SkipMap Int64 Nat KeyStream Slots).run
          [.put 4 0, .put 1 1, .put 2 2, .remove 5, .entries] =
        .ok ([.value none, .value (some 0), .value none, .value (some 2), .sequence [(4, 1)]],
          map) := by
  obtain ⟨map, ran, -⟩ := run_sortedMap (Comparator.residue_totalPreorder 3) {} (KeyStream.ofSeed 0)
    [.put 4 0, .put 1 1, .put 2 2, .remove 5, .entries]
  exact ⟨map, ran⟩

end OrderedCollections.SkipMap

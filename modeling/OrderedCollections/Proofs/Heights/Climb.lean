/-
**The laws of heights.**

A tower climbs level by level: while it is lower than allowed it looks up the threshold of the next
level and rises if the word is below it. Nothing has to be known of the thresholds: a word that is
smaller passes whatever a larger one passes, and a lower limit only ends the climb earlier.

* `climb`: the climb, where a threshold that is not in the table is a fault.
* `climb_eq`: with the limits that options allow it never runs into one, and ends at `heightOf`.
* `lt_heightOf_iff`: the levels that a tower of a word rises above.
* `heightOf_antitone`, `heightOf_eq_min`: smaller words rise higher, lower limits cut towers off.
* `setAll_lawful`: the laws of heights hold for all options that can be made, whatever thresholds
  belong to them.
-/

import Mathlib.Order.Lattice
import Mathlib.Order.Nat
import OrderedCollections.Checked
import OrderedCollections.HeightGenerator

namespace OrderedCollections.HeightGenerator

/-- The climb of a tower from `height` on: while it is lower than `maxHeight`, the threshold of the
next level is looked up, and the tower rises if the word is below it. -/
def climb (thresholds : Vector UInt64 heightLimit) (maxHeight : Nat) (word : UInt64)
    (height : Nat) : Checked Nat :=
  if height < maxHeight then do
    let threshold ← .ofOption .missingLevel thresholds[height]?
    if word < threshold then climb thresholds maxHeight word (height + 1) else return height
  else return height
termination_by maxHeight - height

section Table

variable (thresholds : Vector UInt64 heightLimit) {maxHeight : Nat} (word : UInt64)

/-- A climb rises by one level for every threshold in a row that the word stays below. -/
theorem climb_from {height : Nat} (most : maxHeight ≤ heightLimit) (low : height ≤ maxHeight) :
    climb thresholds maxHeight word height = .ok (height +
      (((thresholds.toList.drop height).take (maxHeight - height)).takeWhile (word < ·)).length) := by
  generalize left : maxHeight - height = levels
  induction levels generalizing height with
  | zero =>
    have atLimit : ¬height < maxHeight := by omega
    rw [climb, if_neg atLimit, List.take_zero]
    rfl
  | succ levels ih =>
    have below : height < maxHeight := by omega
    have inTable : height < heightLimit := Nat.lt_of_lt_of_le below most
    have inList : height < thresholds.toList.length := by rwa [Vector.length_toList]
    rw [climb, if_pos below, Vector.getElem?_eq_getElem inTable, Checked.ofOption_some,
      Checked.ok_bind, List.drop_eq_getElem_cons inList, List.take_succ_cons,
      Vector.getElem_toList]
    by_cases rises : word < thresholds[height]
    · rw [if_pos rises, List.takeWhile_cons_of_pos (by simpa using rises), List.length_cons,
        ih (by omega) (by omega), Nat.add_assoc, Nat.add_comm 1]
    · rw [if_neg rises, List.takeWhile_cons_of_neg (by simpa using rises)]
      rfl

/-- **A climb never leaves the table**, and it ends at the height of the word. -/
theorem climb_eq (most : maxHeight ≤ heightLimit) (positive : 0 < maxHeight) :
    climb thresholds maxHeight word 1 = .ok (heightOf thresholds maxHeight word) :=
  climb_from thresholds word most positive

/-- Some items at the beginning of a list are passed if all of them are there and pass. -/
theorem lt_length_takeWhile_iff {α : Type} {passes : α → Bool} {items : List α} {count : Nat} :
    count < (items.takeWhile passes).length ↔
      ∀ index ≤ count, ∃ item, items[index]? = some item ∧ passes item = true := by
  induction items generalizing count with
  | nil =>
    refine iff_of_false (Nat.not_lt_zero _) fun all => ?_
    obtain ⟨item, found, -⟩ := all 0 (Nat.zero_le _)
    cases found
  | cons first others ih =>
    by_cases passed : passes first = true
    · rw [List.takeWhile_cons_of_pos passed, List.length_cons]
      cases count with
      | zero => simp [passed]
      | succ count =>
        rw [Nat.add_lt_add_iff_right, ih]
        constructor
        · intro rest index low
          cases index with
          | zero => exact ⟨first, rfl, passed⟩
          | succ index => exact rest index (Nat.le_of_succ_le_succ low)
        · intro all index low
          exact all (index + 1) (Nat.succ_le_succ low)
    · rw [List.takeWhile_cons_of_neg passed]
      refine iff_of_false (Nat.not_lt_zero _) fun all => ?_
      obtain ⟨item, isFirst, passes⟩ := all 0 (Nat.zero_le _)
      cases isFirst
      exact passed passes

/-- **The levels that the tower of a word rises above**: those below the limit up to which the word
stays below every threshold, and the ground. -/
theorem lt_heightOf_iff {level : Nat} :
    level < heightOf thresholds maxHeight word ↔ level = 0 ∨ level < maxHeight ∧
      ∀ passed, 0 < passed → passed ≤ level →
        ∃ threshold, thresholds[passed]? = some threshold ∧ word < threshold := by
  unfold heightOf
  cases level with
  | zero => exact iff_of_true (by omega) (Or.inl rfl)
  | succ level =>
    rw [Nat.add_comm 1, Nat.add_lt_add_iff_right, lt_length_takeWhile_iff]
    constructor
    · intro all
      right
      have inside : ∀ index ≤ level, index < maxHeight - 1 ∧
          ∃ threshold, thresholds[index + 1]? = some threshold ∧ word < threshold := by
        intro index low
        obtain ⟨threshold, found, passes⟩ := all index low
        rw [List.getElem?_take] at found
        by_cases taken : index < maxHeight - 1
        · rw [if_pos taken, List.getElem?_drop, Nat.add_comm, Vector.getElem?_toList] at found
          exact ⟨taken, threshold, found, of_decide_eq_true passes⟩
        · rw [if_neg taken] at found
          cases found
      refine ⟨?_, fun passed positive low => ?_⟩
      · have taken := (inside level (Nat.le_refl _)).1
        omega
      · obtain ⟨index, rfl⟩ := Nat.exists_eq_succ_of_ne_zero (Nat.ne_of_gt positive)
        exact (inside index (Nat.le_of_succ_le_succ low)).2
    · rintro (zero | ⟨below, all⟩) index low
      · cases zero
      · obtain ⟨threshold, found, passes⟩ :=
          all (index + 1) (Nat.succ_pos index) (Nat.succ_le_succ low)
        refine ⟨threshold, ?_, decide_eq_true passes⟩
        have taken : index < maxHeight - 1 := by omega
        rw [List.getElem?_take, if_pos taken, List.getElem?_drop, Nat.add_comm,
          Vector.getElem?_toList]
        exact found

/-- **A smaller word rises at least as high.** -/
theorem heightOf_antitone {low high : UInt64} (smaller : low ≤ high) :
    heightOf thresholds maxHeight high ≤ heightOf thresholds maxHeight low := by
  refine le_of_forall_lt fun level rises => ?_
  rw [lt_heightOf_iff] at rises ⊢
  refine rises.imp_right fun ⟨below, all⟩ => ⟨below, fun passed positive least => ?_⟩
  obtain ⟨threshold, found, passes⟩ := all passed positive least
  exact ⟨threshold, found, UInt64.lt_of_le_of_lt smaller passes⟩

/-- **A lower limit only cuts towers off.** -/
theorem heightOf_eq_min {lower : Nat} (positive : 0 < lower) (most : lower ≤ maxHeight) :
    heightOf thresholds lower word = min lower (heightOf thresholds maxHeight word) := by
  refine eq_of_forall_lt_iff fun level => ?_
  rw [Nat.lt_min, lt_heightOf_iff, lt_heightOf_iff]
  constructor
  · rintro (rfl | ⟨below, all⟩)
    · exact ⟨positive, Or.inl rfl⟩
    · exact ⟨below, Or.inr ⟨Nat.lt_of_lt_of_le below most, all⟩⟩
  · rintro ⟨below, rfl | ⟨-, all⟩⟩
    · exact Or.inl rfl
    · exact Or.inr ⟨below, all⟩

end Table

/-! ### The heights of options -/

/-- The generator of the given options, with the thresholds that `table` makes of the branching
factor. -/
def withTable {ρ : Type} (table : UInt32 → Vector UInt64 heightLimit) (options : Options)
    (source : ρ) : HeightGenerator ρ :=
  { withSource options source with thresholds := table options.branch }

/-- The thresholds that are shipped make the generator of the given options. -/
theorem withTable_thresholdsOf {ρ : Type} (options : Options) (source : ρ) :
    withTable thresholdsOf options source = withSource options source := rfl

/-- The height that a word gives under the given options. -/
def heightUnder (table : UInt32 → Vector UInt64 heightLimit) (options : Options) (word : UInt64) :
    Nat :=
  heightOf (table options.branch) options.maxHeight word

/-- **The laws of the heights drawn under options**, where `table` makes the thresholds of a
branching factor. -/
structure Lawful (table : UInt32 → Vector UInt64 heightLimit) (options : Options) : Prop where
  /-- A height takes exactly one word, and nothing but the source changes. -/
  one_word : ∀ {ρ : Type} [RandomSource ρ] (source : ρ),
    (withTable table options source).next =
      (heightUnder table options (RandomSource.next source).1,
        withTable table options (RandomSource.next source).2)
  /-- Every threshold that is looked up is in the table. -/
  in_table : ∀ word, climb (table options.branch) options.maxHeight word 1 =
    .ok (heightUnder table options word)
  bounds : ∀ word, 1 ≤ heightUnder table options word ∧
    heightUnder table options word ≤ options.maxHeight
  /-- With the same branching factor and limit, a smaller word gives no smaller height. -/
  antitone : ∀ other : Options, other.branch = options.branch →
    other.maxHeight = options.maxHeight → ∀ low high, low ≤ high →
      heightUnder table options high ≤ heightUnder table other low
  /-- With the same branching factor and word, the limit only cuts towers off. -/
  truncated : ∀ other : Options, other.branch = options.branch → other.maxHeight = heightLimit →
    ∀ word, heightUnder table options word = min options.maxHeight (heightUnder table other word)

/-- **Whatever options are chosen, in whatever order**, heights are drawn lawfully, with any
thresholds that depend on the branching factor alone. -/
theorem setAll_lawful (table : UInt32 → Vector UInt64 heightLimit)
    (settings : List Options.Setting) : Lawful table (Options.setAll {} settings) := by
  generalize Options.setAll {} settings = options
  refine ⟨fun source => rfl, fun word => ?_, fun word => ⟨?_, ?_⟩,
    fun other sameBranch sameLimit low high smaller => ?_, fun other sameBranch unlimited word => ?_⟩
  · exact climb_eq _ word options.maxHeight_le options.maxHeight_pos
  · exact heightOf_pos _ _ word
  · exact heightOf_le _ options.maxHeight_pos word
  · unfold heightUnder
    rw [sameBranch, sameLimit]
    exact heightOf_antitone _ smaller
  · unfold heightUnder
    rw [sameBranch, unlimited]
    exact heightOf_eq_min _ word options.maxHeight_pos options.maxHeight_le

/-- A branching factor and a limit that are moved into their ranges, and a word that would rise to
the fourth level: the limit of three cuts its tower off, also where the word is drawn. -/
theorem setAll_lawful_clamped :
    let options := Options.setAll {} [.branch 0, .maxHeight 200, .maxHeight 3]
    options.branch = 2 ∧ options.maxHeight = 3 ∧
      heightUnder thresholdsOf (options.withMaxHeight 200) 1152921504606846976 = 4 ∧
      heightUnder thresholdsOf options 1152921504606846976 = 3 ∧
      climb (thresholdsOf options.branch) options.maxHeight 1152921504606846976 1 = .ok 3 ∧
      heightUnder thresholdsOf options 18446744073709551615 ≤ 3 ∧
      (withSource options (⟨#[1152921504606846976], by decide, 0⟩ : Script)).next.1 = 3 := by
  intro options
  have lawful : Lawful thresholdsOf options := setAll_lawful thresholdsOf _
  have unlimited : heightUnder thresholdsOf (options.withMaxHeight 200) 1152921504606846976 = 4 := by
    decide +kernel
  have cut : heightUnder thresholdsOf options 1152921504606846976 = 3 := by
    rw [lawful.truncated (options.withMaxHeight 200) rfl rfl, unlimited]
    rfl
  refine ⟨rfl, rfl, unlimited, cut, ?_, ?_, ?_⟩
  · rw [lawful.in_table, cut]
  · rw [← cut]
    exact lawful.antitone options rfl rfl _ _ (by decide)
  · rw [← withTable_thresholdsOf, lawful.one_word]
    exact cut

end OrderedCollections.HeightGenerator

/-
**Which insertion brought a node.**

A chronicle is kept beside a linked structure: it counts the insertions that added a node, since the
structure was built, and notes down for every live node the number of the one that brought it. It is
told of a node by the keys of the store alone, those in use before an operation and those in use
afterwards. What an operation has to do with the heights is then all in one step: an insertion that
adds a node draws the next height and gives it to that node, and no other operation draws one.

* `Census`: the heights of the live nodes.
* `Draws`: what an operation does to the generator of heights and to the census.
* `Chronicle`, `Chronicle.record`: the chronicle, and what is noted down of an operation.
* `Accounts`, `Accounts.step`: every live node has the height that was drawn for it.
* `SkipList.Counts`: the census that a row stands for.
* `Chronicled`, `Chronicled.recount`: a run of operations with its chronicle.
* `Chronicled.recount_told`: the chronicle of a run is true.
* `SkipList.steps_spec`: one operation on a sound list.
-/

import Mathlib.Order.Bounds.Defs
import OrderedCollections.Proofs.SkipList.Run

namespace OrderedCollections

/-- The heights of the live nodes. -/
abbrev Census := NodeId → Option Nat

variable {ρ : Type}

/-- **What an operation does to the generator and to the census.** -/
inductive Draws [RandomSource ρ] : Bool → HeightGenerator ρ × Census → HeightGenerator ρ × Census →
    Prop
  /-- A node is added: its height is drawn, and all others stay as they are. -/
  | added {heights : HeightGenerator ρ} {before after : Census} {id : NodeId} (new : before id = none)
      (others : ∀ other, after other = if other = id then some heights.next.1 else before other) :
      Draws true (heights, before) (heights.next.2, after)
  /-- No node is added: nothing is drawn, and the nodes that stay keep their heights. -/
  | kept {heights : HeightGenerator ρ} {before after : Census}
      (stays : ∀ id height, after id = some height → before id = some height) :
      Draws false (heights, before) (heights, after)

/-- The number of insertions that added a node, and for every live node the number of those before the
one that brought it. -/
structure Chronicle where
  count : Nat := 0
  birth : NodeId → Option Nat := fun _ => none

/-- The chronicle after an operation, told whether it added a node, and which nodes were live before
it and afterwards. -/
def Chronicle.record (chronicle : Chronicle) (adds : Bool) (before after : Census) : Chronicle where
  count := if adds then chronicle.count + 1 else chronicle.count
  birth id :=
    if (after id).isSome then if (before id).isSome then chronicle.birth id else some chronicle.count
    else none

/-- **Every live node has the height that was drawn for it**: the one of its number in the sequence
that the generator answers from the start. As many heights were drawn as nodes were added. -/
structure Accounts [RandomSource ρ] (start : HeightGenerator ρ) (chronicle : Chronicle)
    (heights : HeightGenerator ρ) (census : Census) : Prop where
  heights_eq : heights = (start.nextMany chronicle.count).2
  live_iff : ∀ id, (census id).isSome ↔ (chronicle.birth id).isSome
  birth_injective : ∀ id other number, chronicle.birth id = some number →
    chronicle.birth other = some number → id = other
  height_eq : ∀ id number, chronicle.birth id = some number →
    ∃ height, (start.nextMany chronicle.count).1[number]? = some height ∧ census id = some height

namespace Accounts

variable [RandomSource ρ] {start heights heights' : HeightGenerator ρ} {chronicle : Chronicle}
  {census census' : Census}

theorem of_empty (start : HeightGenerator ρ) (vacant : ∀ id, census id = none) :
    Accounts start {} start census where
  heights_eq := rfl
  live_iff id := by rw [vacant]
  birth_injective _ _ _ born := by cases born
  height_eq _ _ born := by cases born

theorem birth_lt (accounts : Accounts start chronicle heights census) {id : NodeId} {number : Nat}
    (born : chronicle.birth id = some number) : number < chronicle.count := by
  obtain ⟨height, drawn, -⟩ := accounts.height_eq id number born
  have inside := (List.getElem?_eq_some_iff.mp drawn).1
  rwa [HeightGenerator.length_nextMany] at inside

theorem birth_eq_none (accounts : Accounts start chronicle heights census) {id : NodeId}
    (vacant : census id = none) : chronicle.birth id = none := by
  rw [← Option.not_isSome_iff_eq_none, ← accounts.live_iff, vacant]
  decide

/-- What is noted down of an insertion that adds a node: its number, and nothing else. -/
theorem birth_record_added (accounts : Accounts start chronicle heights census) {id : NodeId}
    {height : Nat} (new : census id = none)
    (others : ∀ other, census' other = if other = id then some height else census other)
    (other : NodeId) : (chronicle.record true census census').birth other =
      if other = id then some chronicle.count else chronicle.birth other := by
  simp only [Chronicle.record, others]
  by_cases same : other = id
  · simp only [same, if_true, Option.isSome_some, new, Option.isSome_none, Bool.false_eq_true, if_false]
  · simp only [if_neg same]
    cases live : census other with
    | some height => rfl
    | none => exact (accounts.birth_eq_none live).symm

/-- What is noted down of an operation that adds no node: those that stay keep their numbers. -/
theorem birth_record_kept
    (stays : ∀ id height, census' id = some height → census id = some height) (id : NodeId) :
    (chronicle.record false census census').birth id =
      if (census' id).isSome then chronicle.birth id else none := by
  simp only [Chronicle.record]
  cases live : census' id with
  | none => rfl
  | some height => rw [stays id height live]; rfl

/-- **One operation** leaves every live node with the height that was drawn for it. -/
theorem step {adds : Bool} (accounts : Accounts start chronicle heights census)
    (draws : Draws adds (heights, census) (heights', census')) :
    Accounts start (chronicle.record adds census census') heights' census' := by
  cases draws with
  | @added _ _ _ id vacant others =>
    have births := accounts.birth_record_added vacant others
    have drawn := start.nextMany_succ chronicle.count
    rw [← accounts.heights_eq] at drawn
    refine ⟨?_, fun other => ?_, fun first second number born born' => ?_,
      fun other number born => ?_⟩
    · exact (congrArg Prod.snd drawn).symm
    · rw [births, others]
      by_cases same : other = id
      · rw [if_pos same, if_pos same]
        exact Iff.rfl
      · rw [if_neg same, if_neg same]
        exact accounts.live_iff other
    · rw [births] at born born'
      by_cases isFirst : first = id <;> by_cases isSecond : second = id
      · rw [isFirst, isSecond]
      · rw [if_pos isFirst, Option.some.injEq] at born
        rw [if_neg isSecond] at born'
        exact absurd (accounts.birth_lt born') (by omega)
      · rw [if_neg isFirst] at born
        rw [if_pos isSecond, Option.some.injEq] at born'
        exact absurd (accounts.birth_lt born) (by omega)
      · rw [if_neg isFirst] at born
        rw [if_neg isSecond] at born'
        exact accounts.birth_injective first second number born born'
    · rw [births] at born
      show ∃ height, (start.nextMany (chronicle.count + 1)).1[number]? = some height ∧ _
      have length := start.length_nextMany chronicle.count
      rw [drawn, others]
      by_cases same : other = id
      · rw [if_pos same, Option.some.injEq] at born
        rw [if_pos same, ← born, List.getElem?_append_right (Nat.le_of_eq length), length, Nat.sub_self]
        exact ⟨heights.next.1, rfl, rfl⟩
      · rw [if_neg same] at born
        rw [if_neg same, List.getElem?_append_left (by rw [length]; exact accounts.birth_lt born)]
        exact accounts.height_eq other number born
  | kept stays =>
    have births : ∀ id, (chronicle.record false census census').birth id =
        if (census' id).isSome then chronicle.birth id else none := birth_record_kept stays
    have kept : ∀ {id number}, (chronicle.record false census census').birth id = some number →
        (census' id).isSome ∧ chronicle.birth id = some number := by
      intro id number born
      rw [births] at born
      by_cases live : (census' id).isSome
      · rw [if_pos live] at born
        exact ⟨live, born⟩
      · rw [if_neg live] at born
        cases born
    refine ⟨accounts.heights_eq, fun id => ?_, fun first second number born born' => ?_,
      fun id number born => ?_⟩
    · rw [births]
      by_cases live : (census' id).isSome
      · obtain ⟨height, held⟩ := Option.isSome_iff_exists.mp live
        have before : (census id).isSome := by
          rw [stays id height held]
          rfl
        rw [if_pos live, ← accounts.live_iff]
        exact iff_of_true live before
      · rw [if_neg live]
        exact iff_of_false live Bool.false_ne_true
    · exact accounts.birth_injective first second number (kept born).2 (kept born').2
    · obtain ⟨live, born⟩ := kept born
      obtain ⟨after, held⟩ := Option.isSome_iff_exists.mp live
      obtain ⟨height, drawn, before⟩ := accounts.height_eq id number born
      rw [stays id after held] at before
      exact ⟨height, drawn, held.trans before⟩

/-- **The number of levels in use is told by the heights drawn for the live nodes.** -/
theorem isGreatest (accounts : Accounts start chronicle heights census) {height : Nat}
    (greatest : IsGreatest {level | level = 1 ∨ ∃ id, census id = some level} height) :
    IsGreatest {level | level = 1 ∨ ∃ id number, chronicle.birth id = some number ∧
      (start.nextMany chronicle.count).1[number]? = some level} height := by
  refine Eq.subst (motive := fun levels => IsGreatest levels height) (Set.ext fun level => ?_) greatest
  refine or_congr Iff.rfl (exists_congr fun id => ⟨fun held => ?_, fun ⟨number, born, drawn⟩ => ?_⟩)
  · have live : (chronicle.birth id).isSome := (accounts.live_iff id).mp (by rw [held]; rfl)
    obtain ⟨number, born⟩ := Option.isSome_iff_exists.mp live
    obtain ⟨other, drawn, held'⟩ := accounts.height_eq id number born
    rw [held, Option.some.injEq] at held'
    exact ⟨number, born, held' ▸ drawn⟩
  · obtain ⟨other, drawn', held⟩ := accounts.height_eq id number born
    rw [drawn, Option.some.injEq] at drawn'
    rw [held, drawn']

end Accounts

/-! ### The census of a row -/

namespace SkipList

/-- The census tells the towers of a row. -/
def Counts {α : Type} (census : Census) (row : List (Tower α)) : Prop :=
  ∀ id height, census id = some height ↔ ∃ tower ∈ row, tower.id = id ∧ tower.height = height

namespace Counts

variable {α β : Type} {census after : Census} {row front back : List (Tower α)} {tower : Tower α}

/-- The most levels that a live node reaches, and at least one, are those that the row needs. -/
theorem isGreatest (counts : Counts census row) :
    IsGreatest {level | level = 1 ∨ ∃ id, census id = some level} (peak row) := by
  constructor
  · by_cases tall : 1 < peak row
    · obtain ⟨tower, member, same⟩ := exists_height_eq_peak tall
      exact Or.inr ⟨tower.id, (counts _ _).mpr ⟨tower, member, rfl, same⟩⟩
    · exact Or.inl (Nat.le_antisymm (Nat.le_of_not_lt tall) (one_le_peak row))
  · rintro level (rfl | ⟨id, held⟩)
    · exact one_le_peak row
    · obtain ⟨tower, member, -, rfl⟩ := (counts id level).mp held
      exact height_le_peak member

theorem eq_none (counts : Counts census ([] : List (Tower α))) (id : NodeId) : census id = none := by
  rw [Option.eq_none_iff_forall_ne_some]
  intro height held
  obtain ⟨tower, member, -⟩ := (counts id height).mp held
  cases member

variable [RandomSource ρ] {heights : HeightGenerator ρ}

/-- A tower that comes in with the height drawn draws that height for its node. -/
theorem added (counts : Counts census (front ++ back))
    (counts' : Counts after (front ++ tower :: back))
    (nodup : ((front ++ tower :: back).map Tower.id).Nodup) (height : tower.height = heights.next.1) :
    Draws true (heights, census) (heights.next.2, after) := by
  have absent := (nodup_insert.mp nodup).1
  have new : census tower.id = none := by
    rw [Option.eq_none_iff_forall_ne_some]
    intro height held
    obtain ⟨other, member, same, -⟩ := (counts _ _).mp held
    exact absent (same ▸ List.mem_map_of_mem member)
  refine .added new fun other => Option.ext fun level => ?_
  rw [counts']
  by_cases same : other = tower.id
  · rw [if_pos same, Option.some.injEq, ← height]
    constructor
    · rintro ⟨found, member, isOther, rfl⟩
      rcases (List.perm_middle.mem_iff.trans List.mem_cons).mp member with rfl | elsewhere
      · rfl
      · exact absurd (same ▸ isOther ▸ List.mem_map_of_mem elsewhere) absent
    · rintro rfl
      exact ⟨tower, by simp, same.symm, rfl⟩
  · rw [if_neg same, counts]
    refine exists_congr fun found => and_congr_left fun ⟨isOther, _⟩ => ?_
    rw [List.perm_middle.mem_iff, List.mem_cons]
    refine or_iff_right fun isTower => same ?_
    rw [← isOther, isTower]

theorem kept {row' : List (Tower β)} (counts : Counts census row) (counts' : Counts after row')
    (stays : ∀ tower' ∈ row', ∃ tower ∈ row, tower.id = tower'.id ∧ tower.height = tower'.height) :
    Draws false (heights, census) (heights, after) := by
  refine .kept fun id height held => ?_
  obtain ⟨tower', member', rfl, rfl⟩ := (counts' _ _).mp held
  exact (counts _ _).mpr (stays tower' member')

theorem removed (counts : Counts census (front ++ tower :: back))
    (counts' : Counts after (front ++ back)) : Draws false (heights, census) (heights, after) :=
  counts.kept counts' fun other member => ⟨other, (sublist_insert _ _ _).mem member, rfl, rfl⟩

end Counts

end SkipList

/-! ### Runs with a chronicle -/

/-- What a chronicle is told of a kind of linked structure: how it makes an operation, whether the
answer says that a node was added, and what there is of heights before and afterwards. -/
structure Chronicled (δ ω θ ρ : Type) where
  perform : δ → ω → Checked (θ × δ)
  adds : ω → θ → Bool
  heights : δ → HeightGenerator ρ
  census : δ → Census
  height : δ → Nat

namespace Chronicled

variable {δ ω θ : Type}

/-- Makes one operation after the other and notes each down: the chronicle, and what the structure has
become. -/
def recount (kind : Chronicled δ ω θ ρ) (chronicle : Chronicle) (state : δ) :
    List ω → Checked (Chronicle × δ)
  | [] => return (chronicle, state)
  | operation :: others => do
    let (answer, after) ← kind.perform state operation
    let noted :=
      chronicle.record (kind.adds operation answer) (kind.census state) (kind.census after)
    kind.recount noted after others

variable [RandomSource ρ]

/-- An operation comes to an answer. It draws a height for the node that it adds, if it adds one, and
leaves behind a structure that has a property. -/
def Steps (kind : Chronicled δ ω θ ρ) (keeps : δ → Prop) (state : δ) (operation : ω) : Prop :=
  ∃ answer after, kind.perform state operation = .ok (answer, after) ∧ keeps after ∧
    Draws (kind.adds operation answer) (kind.heights state, kind.census state)
      (kind.heights after, kind.census after)

/-- **A structure that a chronicle tells the truth about.** Every node has the height drawn for it,
the tallest of these heights is the number of levels in use, and no operation draws a height but for
a node that it adds. -/
structure Told (kind : Chronicled δ ω θ ρ) (start : HeightGenerator ρ) (chronicle : Chronicle)
    (state : δ) : Prop where
  accounts : Accounts start chronicle (kind.heights state) (kind.census state)
  height : IsGreatest {level | level = 1 ∨ ∃ id number, chronicle.birth id = some number ∧
    (start.nextMany chronicle.count).1[number]? = some level} (kind.height state)
  steps : ∀ operation, kind.Steps (fun _ => True) state operation

/-- **A run with a chronicle** ends with a true one, if it was true so far and a property that every
operation keeps says what the tallest node is. -/
theorem recount_told {kind : Chronicled δ ω θ ρ} (keeps : δ → Prop)
    (steps : ∀ state, keeps state → ∀ operation, kind.Steps keeps state operation)
    (tallest : ∀ state, keeps state →
      IsGreatest {level | level = 1 ∨ ∃ id, kind.census state id = some level} (kind.height state))
    {start : HeightGenerator ρ} {chronicle : Chronicle} {state : δ} (kept : keeps state)
    (accounts : Accounts start chronicle (kind.heights state) (kind.census state))
    (operations : List ω) :
    ∃ chronicle' last, kind.recount chronicle state operations = .ok (chronicle', last) ∧
      kind.Told start chronicle' last := by
  induction operations generalizing chronicle state with
  | nil =>
    refine ⟨chronicle, state, rfl, accounts, accounts.isGreatest (tallest state kept),
      fun operation => ?_⟩
    obtain ⟨answer, after, performed, -, draws⟩ := steps state kept operation
    exact ⟨answer, after, performed, trivial, draws⟩
  | cons operation others ih =>
    obtain ⟨answer, after, performed, keptAfter, draws⟩ := steps state kept operation
    obtain ⟨chronicle', last, counted, told⟩ := ih keptAfter (accounts.step draws)
    refine ⟨chronicle', last, ?_, told⟩
    rw [recount, performed]
    exact counted

end Chronicled

/-! ### The chronicle of a list -/

namespace SkipList

variable {α : Type} {σ : Type → Type} [NodeStore σ]

/-- The heights of the nodes of a list. -/
def census (list : SkipList α ρ σ) : Census :=
  fun id => (NodeStore.get? id list.nodes).map fun node => node.links.length

/-- An insertion that is not rejected adds a node. -/
def adds : Operation α → Answer α → Bool
  | .insert _, .entry (.ok _) => true
  | _, _ => false

/-- What a chronicle is told of a list. -/
def chronicled [RandomSource ρ] : Chronicled (SkipList α ρ σ) (Operation α) (Answer α) ρ where
  perform := perform
  adds := adds
  heights := heights
  census := census
  height := height

theorem census_eq (list : SkipList α ρ σ) (id : NodeId) :
    list.census id = (list.body? id).map Body.height := by
  rw [census, body?, Option.map_map]
  rfl

variable {list after : SkipList α ρ σ} {row : List (Tower α)}

/-- The census of a sound list is that of its row. -/
theorem Sound.counts (sound : Sound list row) : Counts list.census row := by
  intro id height
  rw [census_eq]
  constructor
  · intro held
    obtain ⟨body, stored, rfl⟩ := Option.map_eq_some_iff.mp held
    obtain ⟨tower, member, rfl⟩ := List.mem_map.mp (sound.live id (by rw [stored]; rfl))
    obtain ⟨front, back, rfl⟩ := List.append_of_mem member
    rw [sound.body front tower back rfl, Option.some.injEq] at stored
    exact ⟨tower, member, rfl, by rw [← stored]⟩
  · rintro ⟨tower, member, rfl, rfl⟩
    obtain ⟨front, back, rfl⟩ := List.append_of_mem member
    rw [sound.body front tower back rfl]
    rfl

variable [RandomSource ρ]

/-- Whether an operation may change a list. -/
def changes : Operation α → Bool
  | .insert _ | .remove _ | .removeRank _ | .clear => true
  | _ => false

/-- An operation that only reads leaves the list as it is. -/
theorem eq_of_perform {operation : Operation α} {answer : Answer α}
    (reads : changes operation = false) (performed : list.perform operation = .ok (answer, after)) :
    after = list := by
  cases operation with
  | insert | remove | removeRank | clear => cases reads
  | size | isEmpty =>
    cases performed
    rfl
  | find wanted =>
    obtain ⟨outcome, -, told⟩ := Checked.bind_eq_ok.mp performed
    cases outcome with
    | error error =>
      cases told
      rfl
    | ok entry =>
      obtain ⟨answered, -, same⟩ := Checked.bind_eq_ok.mp told
      cases same
      rfl
  | atRank rank =>
    obtain ⟨place, -, told⟩ := Checked.bind_eq_ok.mp performed
    obtain ⟨answered, -, same⟩ := Checked.bind_eq_ok.mp told
    cases same
    rfl
  | contains | elements | front | back =>
    obtain ⟨answered, -, same⟩ := Checked.bind_eq_ok.mp performed
    cases same
    rfl

/-- An operation that leaves the list as it is draws nothing. -/
theorem steps_of_unchanged (sound : Sound list row) {operation : Operation α} {answer : Answer α}
    (none : adds operation answer = false)
    (performed : list.perform operation = .ok (answer, list)) :
    chronicled.Steps (fun after : SkipList α ρ σ => ∃ row, Sound after row) list operation := by
  refine ⟨answer, list, performed, ⟨row, sound⟩, ?_⟩
  show Draws (adds operation answer) _ _
  rw [none]
  exact .kept fun _ _ held => held

/-- An operation that takes out a tower draws nothing. -/
theorem steps_of_removed {front back : List (Tower α)} {tower : Tower α}
    (sound : Sound list (front ++ tower :: back)) {operation : Operation α} {answer : Answer α}
    (none : adds operation answer = false)
    (performed : list.perform operation = .ok (answer, after))
    (heights : after.heights = list.heights) (soundAfter : Sound after (front ++ back)) :
    chronicled.Steps (fun after : SkipList α ρ σ => ∃ row, Sound after row) list operation := by
  refine ⟨answer, after, performed, ⟨front ++ back, soundAfter⟩, ?_⟩
  show Draws (adds operation answer) (list.heights, _) (after.heights, _)
  rw [none, heights]
  exact sound.counts.removed soundAfter.counts

variable [LawfulNodeStore σ]

/-- An operation that only reads draws nothing. -/
theorem steps_of_read (sound : Sound list row) {operation : Operation α}
    (reads : changes operation = false) :
    chronicled.Steps (fun after : SkipList α ρ σ => ∃ row, Sound after row) list operation := by
  obtain ⟨answer, after, row', performed, -⟩ := perform_spec sound operation
  obtain rfl := eq_of_perform reads performed
  have none : adds operation answer = false := by
    cases operation with
    | insert => cases reads
    | _ => rfl
  exact steps_of_unchanged sound none performed

/-- **One operation on a sound list** draws a height for the node that it adds, if it adds one. -/
theorem steps_spec (sound : Sound list row) (operation : Operation α) :
    chronicled.Steps (fun after : SkipList α ρ σ => ∃ row, Sound after row) list operation := by
  cases operation with
  | insert value =>
    obtain ⟨front, back, rfl, -, -, ⟨tower, others, rfl, -, rejected⟩ |
      ⟨-, id, after, inserted, -, heights, soundAfter⟩⟩ := insert_spec sound value
    · have performed : list.perform (.insert value) = .ok (.entry (.error .duplicated), list) := by
        simp only [perform, rejected, Checked.ok_bind, Checked.pure_eq_ok]
      exact steps_of_unchanged sound rfl performed
    · have performed : list.perform (.insert value) =
          .ok (.entry (.ok (value, (front.map Tower.value).length + 1)), after) := by
        simp only [perform, inserted, Checked.ok_bind, told_spec soundAfter rfl, Checked.pure_eq_ok]
      refine ⟨_, after, performed, ⟨_, soundAfter⟩, ?_⟩
      show Draws true (list.heights, list.census) (after.heights, after.census)
      rw [heights]
      exact sound.counts.added soundAfter.counts soundAfter.nodup rfl
  | remove wanted =>
    obtain ⟨front, back, rfl, -, -, ⟨tower, others, rfl, -, after, removed, -, heights, soundAfter⟩ |
      ⟨-, removed⟩⟩ := remove_spec sound wanted
    · have performed : list.perform (.remove wanted) = .ok (.taken (some tower.value), after) := by
        simp only [perform, removed, Checked.ok_bind, Checked.pure_eq_ok]
      exact steps_of_removed sound rfl performed heights soundAfter
    · have performed : list.perform (.remove wanted) = .ok (.taken none, list) := by
        simp only [perform, removed, Checked.ok_bind, Checked.pure_eq_ok]
      exact steps_of_unchanged sound rfl performed
  | removeRank rank =>
    rcases removeRank_spec sound rank with
      ⟨front, tower, back, rfl, -, after, removed, -, heights, soundAfter⟩ | ⟨-, removed⟩
    · have performed : list.perform (.removeRank rank) =
          .ok (.taken (some tower.value), after) := by
        simp only [perform, removed, Checked.ok_bind, Checked.pure_eq_ok]
      exact steps_of_removed sound rfl performed heights soundAfter
    · have performed : list.perform (.removeRank rank) = .ok (.taken none, list) := by
        simp only [perform, removed, Checked.ok_bind, Checked.pure_eq_ok]
      exact steps_of_unchanged sound rfl performed
  | clear =>
    exact ⟨.done, list.clear, rfl, ⟨[], sound.clear⟩,
      sound.counts.kept sound.clear.counts (List.forall_mem_nil _)⟩
  | find | contains | atRank | front | back | size | isEmpty | elements =>
    exact steps_of_read sound rfl

end SkipList

end OrderedCollections

/-
**Asking both ends of an iterator in any order.**

An iterator that can be taken from both ends is asked at one end after the other, in an order that
nothing restricts. Which item a request yields is told by the requests made before it: the front
yields the item whose position is the number of requests to the front, the back yields the one at
that position counted from behind, and once there were as many requests as items nothing is left at
either end.

* `End.ask`, `askAll`: one request, and one after the other.
* `expected`, `expectedAll`: what a request is to yield, and what all of them are.
* `given`: the items that one end yielded.
* `Exact`: every request yields what it is to, and the two ends never meet in one item.
* `Holds.exact`: an iterator that holds its items yields them exactly.
-/

import Mathlib.Data.List.Basic
import OrderedCollections.Proofs.Iteration

namespace OrderedCollections

variable {α σ : Type}

/-- The two ends of an iterator. -/
inductive End where
  | front
  | back
  deriving DecidableEq, Repr

section Requests

variable [BidirectionalIterator σ α]

/-- Asks one end for an item: what it yields, and the iterator after it. Where nothing is yielded the
iterator stays as it is. -/
def End.ask (side : End) (iterator : σ) : Checked (Option α × σ) := do
  let outcome ← match side with
    | .front => ForwardIterator.next? iterator
    | .back => BidirectionalIterator.nextBack? iterator
  match outcome with
  | none => return (none, iterator)
  | some (item, after) => return (some item, after)

/-- Asks one end after the other: what they yield, and the iterator after all of it. -/
def askAll : List End → σ → Checked (List (Option α) × σ)
  | [], iterator => return ([], iterator)
  | side :: others, iterator => do
    let (answer, after) ← side.ask iterator
    let (answers, last) ← askAll others after
    return (answer :: answers, last)

end Requests

/-! ### What is to be yielded -/

/-- The position, counted from zero, of the item that an end is to yield after some earlier requests
to an iterator that had `size` items to yield. -/
def End.position (side : End) (size : Nat) (earlier : List End) : Nat :=
  match side with
  | front => earlier.count front
  | back => size - 1 - earlier.count back

/-- What an end is to yield after some earlier requests to an iterator that had these items to
yield. -/
def expected (items : List α) (earlier : List End) (side : End) : Option α :=
  if earlier.length < items.length then items[side.position items.length earlier]? else none

/-- What the ends are to yield, request by request. -/
def expectedAll (items : List α) (ends : List End) : List (Option α) :=
  ends.mapIdx fun position side => expected items (ends.take position) side

/-- The items that an end yielded, the first one first. -/
def given (side : End) (ends : List End) (answers : List (Option α)) : List α :=
  (ends.zip answers).filterMap fun (asked, answer) => if asked = side then answer else none

theorem given_cons (side asked : End) (ends : List End) (answer : Option α)
    (answers : List (Option α)) :
    given side (asked :: ends) (answer :: answers) =
      (if asked = side then answer else none).toList ++ given side ends answers := by
  unfold given
  rw [List.zip_cons_cons, List.filterMap_cons]
  cases same : (if asked = side then answer else none) <;> simp only [same] <;> rfl

theorem expected_nil (earlier : List End) (side : End) : expected ([] : List α) earlier side = none :=
  if_neg (Nat.not_lt_zero _)

/-- A request to the front leaves the items behind the first one. -/
theorem expected_front_cons (item : α) (items : List α) (earlier : List End) (side : End) :
    expected (item :: items) (.front :: earlier) side = expected items earlier side := by
  unfold expected
  rw [List.length_cons, List.length_cons]
  by_cases inside : earlier.length < items.length
  · have later : side.position (items.length + 1) (.front :: earlier) =
        side.position items.length earlier + 1 := by
      cases side with
      | front => exact List.count_cons_self
      | back =>
        have few : earlier.count .back ≤ earlier.length := List.count_le_length
        have same : (End.front :: earlier).count .back = earlier.count .back :=
          List.count_cons_of_ne (by decide)
        show items.length + 1 - 1 - (End.front :: earlier).count .back =
          items.length - 1 - earlier.count .back + 1
        omega
    rw [if_pos inside, if_pos (Nat.succ_lt_succ inside), later, List.getElem?_cons_succ]
  · rw [if_neg inside, if_neg fun inside' => inside (Nat.lt_of_succ_lt_succ inside')]

/-- A request to the back leaves the items before the last one. -/
theorem expected_back_concat (items : List α) (item : α) (earlier : List End) (side : End) :
    expected (items ++ [item]) (.back :: earlier) side = expected items earlier side := by
  unfold expected
  rw [List.length_append, List.length_singleton, List.length_cons]
  by_cases inside : earlier.length < items.length
  · have same : side.position (items.length + 1) (.back :: earlier) =
        side.position items.length earlier := by
      cases side with
      | front => exact List.count_cons_of_ne (by decide)
      | back =>
        have more : (End.back :: earlier).count .back = earlier.count .back + 1 :=
          List.count_cons_self
        show items.length + 1 - 1 - (End.back :: earlier).count .back =
          items.length - 1 - earlier.count .back
        omega
    have before : side.position items.length earlier < items.length := by
      cases side with
      | front => exact Nat.lt_of_le_of_lt List.count_le_length inside
      | back =>
        show items.length - 1 - earlier.count .back < items.length
        omega
    rw [if_pos inside, if_pos (Nat.succ_lt_succ inside), same, List.getElem?_append_left before]
  · rw [if_neg inside, if_neg fun inside' => inside (Nat.lt_of_succ_lt_succ inside')]

/-! ### What is yielded -/

section Requests

variable [BidirectionalIterator σ α]

/-- **What some requests to the ends of an iterator yield**, where it had these items to yield. -/
structure Answers (items : List α) (ends : List End) (answers : List (Option α)) (after : σ) :
    Prop where
  length_eq : answers.length = ends.length
  /-- Every request yields what it is to. -/
  yielded : ∀ earlier side later, earlier ++ side :: later = ends →
    answers[earlier.length]? = some (expected items earlier side)
  /-- The items that the front yielded, those still to come and those that the back yielded are all
  items, in their order: the ends yield none of them twice and leave none out between them. -/
  between : ∃ middle, given .front ends answers ++ middle ++ (given .back ends answers).reverse = items ∧
    middle.length = items.length - ends.length
  /-- The iterator knows how many are still to come. -/
  remaining_eq : ForwardIterator.remaining after = items.length - ends.length

/-- **An iterator yields its items exactly**, in whatever order its ends are asked. -/
def Exact (iterator : σ) (items : List α) : Prop :=
  ∀ ends, ∃ answers after, askAll ends iterator = .ok (answers, after) ∧
    Answers items ends answers after

variable {iterator after : σ} {items : List α}

/-- What was yielded is told by the requests alone. -/
theorem Answers.answers_eq {ends : List End} {answers : List (Option α)}
    (answered : Answers items ends answers after) : answers = expectedAll items ends := by
  refine List.ext_getElem? fun position => ?_
  unfold expectedAll
  rw [List.getElem?_mapIdx]
  by_cases inside : position < ends.length
  · have split : ends.take position ++ ends[position] :: ends.drop (position + 1) = ends := by
      rw [← List.drop_eq_getElem_cons inside, List.take_append_drop]
    have here := answered.yielded _ _ _ split
    rw [List.length_take, Nat.min_eq_left (Nat.le_of_lt inside)] at here
    rw [here, List.getElem?_eq_getElem inside, Option.map_some]
  · have beyond := Nat.le_of_not_lt inside
    rw [List.getElem?_eq_none beyond, List.getElem?_eq_none (answered.length_eq ▸ beyond)]
    rfl

theorem Holds.ask_nil (holds : Holds iterator ([] : List α)) (side : End) :
    side.ask iterator = .ok (none, iterator) := by
  cases side with
  | front => simp only [End.ask, serves_holds.next_nil holds, Checked.ok_bind, Checked.pure_eq_ok]
  | back => simp only [End.ask, serves_holds.nextBack_nil holds, Checked.ok_bind, Checked.pure_eq_ok]

theorem Holds.askAll_nil (holds : Holds iterator ([] : List α)) (ends : List End) :
    askAll ends iterator = .ok (List.replicate ends.length none, iterator) := by
  induction ends with
  | nil => rfl
  | cons side others ih =>
    simp only [askAll, holds.ask_nil side, Checked.ok_bind, ih, Checked.pure_eq_ok,
      List.length_cons, List.replicate_succ]

theorem given_replicate (side : End) (ends : List End) :
    given side ends (List.replicate ends.length (none : Option α)) = [] := by
  induction ends with
  | nil => rfl
  | cons asked others ih =>
    rw [List.length_cons, List.replicate_succ, given_cons, ih, ite_self]
    rfl

theorem answers_nil (holds : Holds iterator ([] : List α)) (ends : List End) :
    Answers [] ends (List.replicate ends.length none) iterator where
  length_eq := List.length_replicate
  yielded := by
    rintro earlier side later rfl
    rw [expected_nil, List.getElem?_replicate_of_lt (by simp)]
  between := ⟨[], by rw [given_replicate, given_replicate]; rfl, (Nat.zero_sub _).symm⟩
  remaining_eq := by
    rw [serves_holds.remaining_eq holds, List.length_nil, Nat.zero_sub]

/-- Where the first request yields an item and leaves the others, every later one yields what it is
to among these. -/
theorem Answers.yielded_cons {all : List α} {asked : End} {item : α} {others : List End}
    {answers : List (Option α)} (answered : Answers items others answers after)
    (first : expected all [] asked = some item)
    (rest : ∀ earlier side, expected all (asked :: earlier) side = expected items earlier side)
    (earlier : List End) (side : End) (later : List End)
    (split : earlier ++ side :: later = asked :: others) :
    (some item :: answers)[earlier.length]? = some (expected all earlier side) := by
  cases earlier with
  | nil =>
    obtain ⟨rfl, -⟩ := List.cons.inj split
    rw [first]
    rfl
  | cons _ earlier =>
    obtain ⟨rfl, split'⟩ := List.cons.inj split
    rw [List.length_cons, List.getElem?_cons_succ, answered.yielded earlier side later split', rest]

/-- A request to the front yields the first item. -/
theorem Answers.front {item : α} {others : List End} {answers : List (Option α)}
    (answered : Answers items others answers after) :
    Answers (item :: items) (.front :: others) (some item :: answers) after where
  length_eq := congrArg Nat.succ answered.length_eq
  yielded := answered.yielded_cons rfl (expected_front_cons item items)
  between := by
    obtain ⟨middle, split, length⟩ := answered.between
    refine ⟨middle, ?_, ?_⟩
    · rw [given_cons, given_cons, if_pos rfl, if_neg (by decide)]
      show item :: (_ ++ middle ++ _) = _
      exact congrArg _ split
    · rw [length, List.length_cons, List.length_cons, Nat.add_sub_add_right]
  remaining_eq := by
    rw [answered.remaining_eq, List.length_cons, List.length_cons, Nat.add_sub_add_right]

/-- A request to the back yields the last item. -/
theorem Answers.back {item : α} {others : List End} {answers : List (Option α)}
    (answered : Answers items others answers after) :
    Answers (items ++ [item]) (.back :: others) (some item :: answers) after where
  length_eq := congrArg Nat.succ answered.length_eq
  yielded := by
    refine answered.yielded_cons ?_ (expected_back_concat items item)
    simp [expected, End.position]
  between := by
    obtain ⟨middle, split, length⟩ := answered.between
    refine ⟨middle, ?_, ?_⟩
    · rw [given_cons, given_cons, if_pos rfl, if_neg (by decide), ← split]
      simp
    · rw [length, List.length_append, List.length_singleton, List.length_cons,
        Nat.add_sub_add_right]
  remaining_eq := by
    rw [answered.remaining_eq, List.length_append, List.length_singleton, List.length_cons,
      Nat.add_sub_add_right]

/-- **An iterator that holds its items yields them exactly.** -/
theorem Holds.exact (holds : Holds iterator items) : Exact iterator items := by
  intro ends
  induction ends generalizing iterator items with
  | nil =>
    refine ⟨[], iterator, rfl, rfl, ?_, ⟨items, List.append_nil items, rfl⟩, ?_⟩
    · intro earlier side later split
      exact absurd split (by simp)
    · exact serves_holds.remaining_eq holds
  | cons side others ih =>
    cases side with
    | front =>
      cases items with
      | nil => exact ⟨_, _, holds.askAll_nil _, answers_nil holds _⟩
      | cons item items =>
        obtain ⟨next, taken, rest⟩ := serves_holds.next_cons holds
        obtain ⟨answers, last, asked, answered⟩ := ih rest
        refine ⟨some item :: answers, last, ?_, answered.front⟩
        simp only [askAll, End.ask, taken, Checked.ok_bind, Checked.pure_eq_ok, asked]
    | back =>
      rcases List.eq_nil_or_concat' items with rfl | ⟨items, item, rfl⟩
      · exact ⟨_, _, holds.askAll_nil _, answers_nil holds _⟩
      · obtain ⟨next, taken, rest⟩ := serves_holds.nextBack_concat holds
        obtain ⟨answers, last, asked, answered⟩ := ih rest
        refine ⟨some item :: answers, last, ?_, answered.back⟩
        simp only [askAll, End.ask, taken, Checked.ok_bind, Checked.pure_eq_ok, asked]

end Requests

end OrderedCollections

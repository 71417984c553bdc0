/-
**Sessions on lists that cannot be told apart.**

Every command on twins is answered the same and leaves twins behind, so that a session on the one and
on the other is the same, step by step, and runs into no fault. For two lists to be twins nothing is
asked of the way in which they came about: only that they show the same elements in towers of the same
heights, with the same comparator and the same generator.

* `viewEntry_twins`, `runMoves_twins`: entries seen, and walks.
* `ListCommand.run_twins`: one command.
* `ListCommand.transcript_twins`: a whole session.
* `transcript_eq_of_profile`: sessions on any two lists that show the same.
-/

import OrderedCollections.Session.ListCommand
import OrderedCollections.Proofs.Session.Scripts
import OrderedCollections.Proofs.SkipList.Twins

namespace OrderedCollections.Session

open SkipList (Entry Twins TwinEntries TwinResults)

variable {κ ρ : Type} {σ τ : Type → Type} [NodeStore σ] [NodeStore τ] {order : Comparator κ}

/-! ### Entries -/

section Entries

variable {entry : Entry κ ρ σ} {entry' : Entry κ ρ τ}

/-- Entries in the same place show the same. -/
theorem viewEntry_twins (entries : TwinEntries order entry entry') :
    Checked.Both Eq (viewEntry entry) (viewEntry entry') := by
  refine entries.prev?.bind fun before before' sameBefore => ?_
  refine (Checked.Both.mapM_option sameBefore fun _ _ others => others.value).bind
    fun prev prev' samePrev => ?_
  refine entries.next?.bind fun after after' sameAfter => ?_
  refine (Checked.Both.mapM_option sameAfter fun _ _ others => others.value).bind
    fun next next' sameNext => ?_
  refine entries.value.bind_same fun value => ?_
  rw [eq_of_rel samePrev, eq_of_rel sameNext]
  exact entries.rank.tell_same fun rank => EntryView.mk value rank prev' next'

theorem viewPlaced_twins {outcome : Except Error (Entry κ ρ σ)}
    {outcome' : Except Error (Entry κ ρ τ)} (same : SameOutcome (TwinEntries order) outcome outcome') :
    Checked.Both Eq (viewPlaced outcome) (viewPlaced outcome') := by
  cases same with
  | error error => exact .pure rfl
  | ok entries => exact (viewEntry_twins entries).tell_same Except.ok

theorem viewAll_twins {found : Option (Entry κ ρ σ)} {found' : Option (Entry κ ρ τ)}
    (same : Option.Rel (TwinEntries order) found found') :
    Checked.Both Eq (found.mapM viewEntry) (found'.mapM viewEntry) :=
  (Checked.Both.mapM_option same fun _ _ => viewEntry_twins).mono fun _ _ => eq_of_rel

variable [Key κ]

theorem renderEntry_twins (entries : TwinEntries order entry entry') :
    Checked.Both Eq (renderEntry entry) (renderEntry entry') :=
  entries.value.tell_same fun value => Rendering.record "EntryRef" [("value", Key.rendering value)]

/-- **Walks from the same place** are answered the same: every move leads to the same place again. -/
theorem runMoves_twins (moves : List Move) {current saved : Entry κ ρ σ}
    {current' saved' : Entry κ ρ τ} (here : TwinEntries order current current')
    (there : TwinEntries order saved saved') :
    Checked.Both Eq (runMoves moves current saved) (runMoves moves current' saved') := by
  induction moves generalizing current saved current' saved' with
  | nil =>
    unfold runMoves
    exact .pure rfl
  | cons move moves ih =>
    have stepped : ∀ {reached : Option (Entry κ ρ σ)} {reached' : Option (Entry κ ρ τ)},
        Option.Rel (TwinEntries order) reached reached' →
        Checked.Both Eq (runMoves.step reached moves current saved)
          (runMoves.step reached' moves current' saved') := by
      intro reached reached' same
      unfold runMoves.step
      cases same with
      | none => exact (ih here there).tell_same fun replies => .element none :: replies
      | some entries =>
        refine entries.value.bind_same fun value => ?_
        exact (ih entries there).tell_same fun replies => .element (some value) :: replies
    unfold runMoves
    cases move with
    | next => exact here.next?.bind fun _ _ => stepped
    | prev => exact here.prev?.bind fun _ _ => stepped
    | save => exact ih here here
    | swap =>
      refine there.value.bind_same fun value => ?_
      exact (ih there here).tell_same fun replies => .element (some value) :: replies
    | rank =>
      refine here.rank.bind_same fun rank => ?_
      exact (ih here there).tell_same fun replies => .rank rank :: replies
    | display =>
      refine (renderEntry_twins here).bind_same fun shown => ?_
      exact (ih here there).tell_same fun replies => .text shown.oneLine :: replies

end Entries

theorem renderList_twins [Key κ] {list : SkipList κ ρ σ} {list' : SkipList κ ρ τ}
    (twins : Twins order list list') : Checked.Both Eq (renderList list) (renderList list') :=
  twins.elements.tell_same fun elements => Rendering.list (elements.map Key.rendering)

/-! ### Commands -/

section Commands

variable {list : SkipList κ ρ σ} {list' : SkipList κ ρ τ}

/-- What only reads answers the same of twins. -/
theorem results_of_read (twins : Twins order list list') {β ω : Type} {read read' : Checked β}
    (both : Checked.Both Eq read read') (answer : β → ω) :
    Checked.Both (TwinResults order) (read >>= fun item => pure (answer item, list))
      (read' >>= fun item => pure (answer item, list')) :=
  both.bind_same fun _ => .pure ⟨rfl, twins⟩

theorem entry?_twins (twins : Twins order list list') (start : WalkStart) :
    Checked.Both (Option.Rel (TwinEntries order)) (start.entry? list) (start.entry? list') := by
  cases start with
  | front => exact .pure twins.front?
  | back => exact .pure twins.back?
  | rank wanted => exact twins.atRank? wanted

variable [RandomSource ρ] [LawfulNodeStore σ] [LawfulNodeStore τ]

/-- One call of a batch. -/
theorem ListBatch.call_twins (twins : Twins order list list') (operation : ListBatch) (key : κ) :
    Checked.Both (TwinResults order) (operation.call key list) (operation.call key list') := by
  cases operation with
  | insert =>
    refine (twins.insert key).bind fun ⟨outcome, after⟩ ⟨outcome', after'⟩ ⟨same, twinsAfter⟩ => ?_
    cases same with
    | error error => exact .pure ⟨rfl, twinsAfter⟩
    | ok entries =>
      exact results_of_read twinsAfter entries.rank fun rank => some (Int64.ofNat rank)
  | remove =>
    refine (twins.remove key).bind fun ⟨taken, after⟩ ⟨taken', after'⟩ ⟨same, twinsAfter⟩ => ?_
    exact .pure ⟨congrArg (Option.map fun _ => 1) same, twinsAfter⟩
  | rank =>
    exact results_of_read twins (twins.rank key) fun rank => rank.toOption.map Int64.ofNat
  | find =>
    refine (twins.find key).bind fun found found' same => ?_
    cases same with
    | error error => exact .pure ⟨rfl, twins⟩
    | ok entries =>
      exact results_of_read twins entries.rank fun rank => some (Int64.ofNat rank)

variable [Key κ]

/-- A whole batch, call by call. -/
theorem runBatch_twins (twins : Twins order list list') (operation : ListBatch)
    (progression : Progression) :
    Checked.Both (TwinResults order)
      (runBatch (fun _ number => operation.call (Key.ofNumber number)) progression list)
      (runBatch (fun _ number => operation.call (Key.ofNumber number)) progression list') := by
  refine Checked.Both.foldlM (fun result result' place same => ?_) _ ⟨rfl, twins⟩
  obtain ⟨tally, list⟩ := result
  obtain ⟨tally', list'⟩ := result'
  obtain ⟨sameTally, twins⟩ := same
  obtain rfl : tally = tally' := sameTally
  refine (operation.call_twins twins _).bind fun called called' same => .pure ?_
  exact ⟨congrArg (tally.add place) same.1, same.2⟩

/-- **One command** on twins is answered the same and leaves twins behind. -/
theorem ListCommand.run_twins (twins : Twins order list list') (command : ListCommand κ) :
    Checked.Both (TwinResults order) (command.run list) (command.run list') := by
  cases command with
  | insert key =>
    refine (twins.insert key).bind fun ⟨outcome, after⟩ ⟨outcome', after'⟩ ⟨same, twinsAfter⟩ => ?_
    refine results_of_read twinsAfter ?_ Reply.placed
    cases same with
    | error error => exact .pure rfl
    | ok entries => exact viewPlaced_twins (.ok entries)
  | find key =>
    refine (twins.find key).bind fun found found' same => ?_
    exact results_of_read twins (viewPlaced_twins same) Reply.placed
  | contains key => exact results_of_read twins (twins.contains key) Reply.flag
  | remove key =>
    refine (twins.remove key).bind fun ⟨taken, after⟩ ⟨taken', after'⟩ ⟨same, twinsAfter⟩ => ?_
    exact .pure ⟨congrArg Reply.element same, twinsAfter⟩
  | rank key => exact results_of_read twins (twins.rank key) Reply.rank
  | atRank wanted =>
    refine (twins.atRank? wanted).bind fun found found' same => ?_
    exact results_of_read twins (viewAll_twins same) Reply.entry
  | removeRank wanted =>
    refine (twins.removeRank wanted).bind
      fun ⟨taken, after⟩ ⟨taken', after'⟩ ⟨same, twinsAfter⟩ => ?_
    exact .pure ⟨congrArg Reply.element same, twinsAfter⟩
  | front => exact results_of_read twins (viewAll_twins twins.front?) Reply.entry
  | back => exact results_of_read twins (viewAll_twins twins.back?) Reply.entry
  | isEmpty => exact .pure ⟨congrArg Reply.flag twins.isEmpty_eq, twins⟩
  | clear => exact .pure ⟨rfl, twins.clear⟩
  | elements => exact results_of_read twins twins.elements Reply.elements
  | reversed =>
    obtain ⟨items, holds, holds'⟩ := twins.iterator
    exact results_of_read twins (.of_eq holds.restBack holds'.restBack rfl) Reply.elements
  | ranks =>
    refine twins.elements.bind_same fun elements => ?_
    exact results_of_read twins (Checked.Both.mapM_list twins.rank elements)
      fun ranks => Reply.ranks (ranks.map fun rank => rank.toOption.getD 0)
  | iterate script =>
    obtain ⟨items, holds, holds'⟩ := twins.iterator
    exact results_of_read twins
      (.of_eq (runScript_of_holds holds script) (runScript_of_holds holds' script) rfl) Reply.iterated
  | walk start moves =>
    refine (entry?_twins twins start).bind fun found found' same => ?_
    cases same with
    | none => exact .pure ⟨rfl, twins⟩
    | some entries =>
      refine (runMoves_twins moves entries entries).bind_same fun replies => ?_
      exact results_of_read twins entries.value
        fun value => Reply.walked (some (.element (some value) :: replies))
  | display layout =>
    exact results_of_read twins (renderList_twins twins) fun text => Reply.text (layout.render text)
  | compare one other => exact .pure ⟨by rw [twins.cmp_eq.1, twins.cmp_eq.2], twins⟩
  | batch operation progression =>
    refine (runBatch_twins twins operation progression).bind fun result result' same => .pure ?_
    exact ⟨congrArg Reply.tally same.1, same.2⟩

/-! ### Sessions -/

theorem ListCommand.runAll_twins (commands : List (ListCommand κ)) (twins : Twins order list list') :
    Checked.Both (Twins order) (runAll commands list) (runAll commands list') := by
  refine Checked.Both.foldlM (fun before before' command twins => ?_) commands twins
  exact (command.run_twins twins).bind fun _ _ same => .pure same.2

/-- **A session on twins** is the same on both, and no command runs into a fault. -/
theorem ListCommand.transcript_twins (commands : List (ListCommand κ)) (twins : Twins order list list') :
    transcript commands list = transcript commands list' ∧
      (transcript commands list).length = commands.length := by
  induction commands generalizing list list' with
  | nil => exact ⟨rfl, rfl⟩
  | cons command commands ih =>
    obtain ⟨⟨reply, after⟩, ⟨reply', after'⟩, done, done', sameReply, twinsAfter⟩ :=
      command.run_twins twins
    obtain ⟨same, length⟩ := ih twinsAfter
    have replies : reply = reply' := sameReply
    have sizes : after.size = after'.size := SkipList.Twins.size_eq twinsAfter
    have levels : after.height = after'.height := SkipList.Twins.height_eq twinsAfter
    unfold transcript
    simp only [done, done']
    refine ⟨?_, by rw [List.length_cons, List.length_cons, length]⟩
    rw [replies, sizes, levels, same]

/-- Every session on a list without elements comes to its end, with a sound list of the same
comparator: it makes the same steps on two lists, and these may be one and the same. -/
theorem ListCommand.runAll_sound (options : Options) (cmp : Comparator κ) (source : ρ)
    (history : List (ListCommand κ)) :
    ∃ list : SkipList κ ρ σ, ∃ row,
      runAll history (SkipList.withSource options cmp source) = .ok list ∧
        SkipList.Sound list row ∧ list.cmp = cmp := by
  have start : SkipList.Sound (SkipList.withSource options cmp source : SkipList κ ρ σ) [] :=
    SkipList.sound_withSource options cmp source
  have twins : Twins cmp (SkipList.withSource options cmp source : SkipList κ ρ σ)
      (SkipList.withSource options cmp source : SkipList κ ρ σ) :=
    ⟨[], [], start, start, rfl, rfl, rfl, rfl⟩
  obtain ⟨list, _, reached, _, row, _, twin⟩ := runAll_twins history twins
  exact ⟨list, row, reached, twin.sound, twin.cmp⟩

/-- **Lists that show the same cannot be told apart.** Two lists may have come about in any way: by
other sessions, from other options and sources, in stores of another kind. Where they have the same
elements in towers of the same heights, the same comparator and the same generator, every further
session is the same on both, reply by reply, with the same size and height after each, and comes to
its end. -/
theorem transcript_eq_of_profile (options options' : Options) (cmp : Comparator κ) (source source' : ρ)
    (history history' : List (ListCommand κ)) {list : SkipList κ ρ σ} {list' : SkipList κ ρ τ}
    (reached : ListCommand.runAll history (SkipList.withSource options cmp source) = .ok list)
    (reached' : ListCommand.runAll history' (SkipList.withSource options' cmp source') = .ok list')
    (profile : list.profile = list'.profile) (heights : list.heights = list'.heights)
    (commands : List (ListCommand κ)) :
    ListCommand.transcript commands list = ListCommand.transcript commands list' ∧
      (ListCommand.transcript commands list).length = commands.length := by
  obtain ⟨_, row, same, sound, ordered⟩ :=
    ListCommand.runAll_sound (σ := σ) options cmp source history
  obtain rfl := Except.ok.inj (same.symm.trans reached)
  obtain ⟨_, row', same', sound', ordered'⟩ :=
    ListCommand.runAll_sound (σ := τ) options' cmp source' history'
  obtain rfl := Except.ok.inj (same'.symm.trans reached')
  have twins := SkipList.twins_of_profile sound sound' ordered ordered' heights profile
  exact ListCommand.transcript_twins commands twins

end Commands

/-- Two lists of the numbers one and two. They stand under different keys, and above the levels in use
the header of the first was left with another span: it had three towers at a time, the second never
more than two. -/
theorem transcript_eq_of_reused_keys :
    ∃ list list' : SkipList Int64 Script Slots,
      ListCommand.runAll [.insert 9, .insert 1, .insert 2, .remove 9]
          (SkipList.withSource {} Comparator.ascend
            ⟨#[72057594037927936, 18446744073709551615, 18446744073709551615], by decide, 0⟩) =
        .ok list ∧
      ListCommand.runAll [.insert 7, .insert 2, .remove 7, .insert 1]
          (SkipList.withSource { capacity := 8 } Comparator.ascend
            ⟨#[72057594037927936, 18446744073709551615, 18446744073709551615], by decide, 0⟩) =
        .ok list' ∧
      (list.first ≠ list'.first ∧ list.linkAt 1 .head ≠ list'.linkAt 1 .head) ∧
      ListCommand.transcript
          [.insert 5, .walk .front [.next, .rank, .prev], .removeRank 2, .iterate [.nextBack]] list =
        ListCommand.transcript
          [.insert 5, .walk .front [.next, .rank, .prev], .removeRank 2, .iterate [.nextBack]] list' := by
  have shown : (do
      let list ← (ListCommand.runAll [.insert 9, .insert 1, .insert 2, .remove 9]
        (SkipList.withSource {} Comparator.ascend
          ⟨#[72057594037927936, 18446744073709551615, 18446744073709551615], by decide, 0⟩) :
        Checked (SkipList Int64 Script Slots))
      let list' ← (ListCommand.runAll [.insert 7, .insert 2, .remove 7, .insert 1]
        (SkipList.withSource { capacity := 8 } Comparator.ascend
          ⟨#[72057594037927936, 18446744073709551615, 18446744073709551615], by decide, 0⟩) :
        Checked (SkipList Int64 Script Slots))
      return decide (list.profile = list'.profile ∧ list.heights = list'.heights ∧
        list.first ≠ list'.first ∧ list.linkAt 1 .head ≠ list'.linkAt 1 .head)) =
      (.ok true : Checked Bool) := by
    decide +kernel
  obtain ⟨list, reached, shown⟩ := Checked.bind_eq_ok.mp shown
  obtain ⟨list', reached', shown⟩ := Checked.bind_eq_ok.mp shown
  obtain ⟨profile, heights, different⟩ := of_decide_eq_true (Except.ok.inj shown)
  refine ⟨list, list', reached, reached', different, ?_⟩
  exact (transcript_eq_of_profile _ _ _ _ _ _ _ reached reached' profile heights _).1

end OrderedCollections.Session

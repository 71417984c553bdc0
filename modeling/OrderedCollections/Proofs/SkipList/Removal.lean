/-
**Towers that go away.**

With the turns of a descent that left a sound list in a gap, the tower behind the gap can be taken
out: no subtraction of spans falls below zero, no key without a node is followed, and the list is
sound for the row with a tower less.

* `leaveLevels_spec`: the tower leaves every level that it takes part in.
* `takeOut_spec`: the node of a tower that has left all levels is taken out.
* `unlink_spec`: a tower less.
-/

import OrderedCollections.Proofs.SkipList.Descent

namespace OrderedCollections.SkipList

variable {α ρ : Type} {σ : Type → Type} [NodeStore σ]

section Erase

variable [LawfulNodeStore σ] {list : SkipList α ρ σ} {level : Nat}
  {near skipped front back : List (Tower α)} {tower : Tower α}

/-- **A level is joined behind a gap**, and the tower leaves it or stayed below it. -/
theorem join_spec (laid : Laid (list.linkAt level) level (near ++ skipped ++ tower :: back))
    (nodup : ((near ++ skipped ++ tower :: back).map Tower.id).Nodup)
    (reaches : Reaches level near) (short : ∀ other ∈ skipped, other.height ≤ level) :
    ∃ after, list.join tower.id level ⟨owner near, near.length⟩ = .ok after ∧
      SameBodies list after ∧ Laid (after.linkAt level) level (near ++ skipped ++ back) ∧
      after.linkAt level (.node tower.id) = list.linkAt level (.node tower.id) ∧
      ∀ other, other ≠ level → after.linkAt other = list.linkAt other := by
  have before := laid.last reaches short
  obtain ⟨after, setNear, sameAfter, linksAfter⟩ := setLink_spec before
    ⟨(ahead level back).next, (ahead level back).span + skipped.length⟩
  have different : owner near ≠ .node tower.id := by
    rw [List.append_assoc] at nodup
    exact owner_ne_node (notMem_of_behind nodup (by simp))
  have joined : list.join tower.id level ⟨owner near, near.length⟩ = .ok after := by
    by_cases tall : level < tower.height
    · rw [ahead_cons_of_tall tall] at before
      have leads : list.linkAt level (owner near) = .ok ⟨some tower.id, 1 + skipped.length⟩ := before
      have removed := laid (near ++ skipped ++ [tower]) back (by simp) (reaches_concat.mpr tall)
      rw [owner_concat] at removed
      have enough : 1 ≤ 1 + skipped.length + (ahead level back).span := by omega
      have sum : 1 + skipped.length + (ahead level back).span - 1 =
          (ahead level back).span + skipped.length := by omega
      unfold join
      rw [leads, Checked.ok_bind, if_pos rfl, removed, Checked.ok_bind,
        Checked.minus_of_le enough, Checked.ok_bind, sum, setNear]
    · rw [ahead_cons_of_short (Nat.le_of_not_lt tall)] at before
      have leads : list.linkAt level (owner near) =
          .ok ⟨(ahead level back).next, (ahead level back).span + 1 + skipped.length⟩ := before
      have elsewhere : (ahead level back).next ≠ some tower.id := by
        intro toTower
        have absent := (nodup_insert.mp nodup).1
        rw [List.map_append, List.mem_append, not_or] at absent
        exact absent.2 (mem_of_ahead_next toTower)
      have enough : 1 ≤ (ahead level back).span + 1 + skipped.length := by omega
      have less : (ahead level back).span + 1 + skipped.length - 1 =
          (ahead level back).span + skipped.length := by omega
      unfold join
      rw [leads, Checked.ok_bind, if_neg elsewhere, Checked.minus_of_le enough,
        Checked.ok_bind, less, setNear]
  refine ⟨after, joined, sameAfter, ?_, ?_, fun other otherLevel => ?_⟩
  · refine laid.erase nodup reaches short ?_ fun place notNear => ?_
    · rw [linksAfter, if_pos ⟨rfl, rfl⟩, ahead_append_of_short short]
    · rw [linksAfter, if_neg fun both => notNear both.2]
  · rw [linksAfter, if_neg fun both => different both.2.symm]
  · funext place
    rw [linksAfter, if_neg fun both => otherLevel both.1]

/-- **A tower leaves every level** that it takes part in. Its own links stay as they were. -/
theorem leaveLevels_spec {levels : Nat} {turns : List Stand} (marks : Turns levels front turns)
    (laid : ∀ level < levels, Laid (list.linkAt level) level (front ++ tower :: back))
    (nodup : ((front ++ tower :: back).map Tower.id).Nodup) :
    ∃ after, changeLevels (fun level turn list => list.join tower.id level turn) turns list =
        .ok after ∧
      SameBodies list after ∧
      (∀ level < levels, Laid (after.linkAt level) level (front ++ back) ∧
        after.linkAt level (.node tower.id) = list.linkAt level (.node tower.id)) ∧
      ∀ level, levels ≤ level → after.linkAt level = list.linkAt level := by
  have step : LevelWise (fun level turn list => list.join tower.id level turn)
      (fun level links => Laid links level (front ++ back) ∧
        links (.node tower.id) = list.linkAt level (.node tower.id)) turns list := by
    intro level turn found before sameBefore linksBefore
    have below : level < levels := by
      rw [← marks.length_eq]
      exact (List.getElem?_eq_some_iff.mp found).1
    obtain ⟨near, skipped, rfl, reaches, short, here⟩ := marks.at_level level below
    rw [found, Option.some.injEq] at here
    subst here
    have laidBefore : Laid (before.linkAt level) level (near ++ skipped ++ tower :: back) := by
      rw [linksBefore]
      exact laid level below
    obtain ⟨after, joined, same, left, kept, others⟩ := join_spec laidBefore nodup reaches short
    exact ⟨after, joined, same, ⟨left, by rw [kept, linksBefore]⟩, others⟩
  obtain ⟨after, changed, same, good, above⟩ := changeLevels_spec step
  rw [marks.length_eq] at good above
  exact ⟨after, changed, same, good, above⟩

/-- **The node of a tower that has left all levels is taken out.** The tower behind it, or the list
itself, is told of the one before it; then its node goes, and the levels that nothing is on any more
are given up. -/
theorem takeOut_spec {spliced : SkipList α ρ σ} (sound : Sound list (front ++ tower :: back))
    (same : SameBodies list spliced)
    (laid : ∀ level < list.height, Laid (spliced.linkAt level) level (front ++ back))
    (above : ∀ level, list.height ≤ level → spliced.linkAt level = list.linkAt level) :
    ∃ bridged last, spliced.setBefore (lastId? front) (back.head?.map Tower.id) = .ok bridged ∧
      NodeStore.get? tower.id bridged.nodes = some last ∧ last.value = tower.value ∧
      bridged.size = (front ++ back).length + 1 ∧
      NodeStore.size (NodeStore.erase tower.id bridged.nodes) = (front ++ back).length ∧
      usedLevels (fun level => return (← bridged.linkAt level .head).next) bridged.height =
        .ok (peak (front ++ back)) ∧
      bridged.cmp = list.cmp ∧ bridged.heights = list.heights ∧
      Sound { bridged with
        nodes := NodeStore.erase tower.id bridged.nodes
        size := (front ++ back).length
        height := peak (front ++ back) } (front ++ back) := by
  have absent := (nodup_insert.mp sound.nodup).1
  have housed : Housed spliced (front ++ tower :: back) := sound.toHoused.congr same.body?
  obtain ⟨bridged, set, cmpBridged, heightsBridged, headBridged, sizeBridged, heightBridged,
    storedBridged, tailBridged, bodyBridged, linksBridged⟩ :=
    setBefore_spec (housed.held_first (List.append_assoc front [tower] back)) (lastId? front)
  have notFirst : some tower.id ≠ back.head?.map Tower.id := by
    rw [List.map_append, List.mem_append, not_or] at absent
    exact ne_first absent.2
  have bodyLast : bridged.body? tower.id = some ⟨tower.value, lastId? front, tower.height⟩ := by
    rw [bodyBridged, if_neg notFirst]
    exact housed.body front tower back rfl
  obtain ⟨last, storedLast, -, bodyLast'⟩ := node_of_body? bodyLast
  have inUse : (bridged.body? tower.id).isSome := by
    rw [bodyLast]
    rfl
  obtain ⟨fewer, bodyErased, linksErased⟩ := eraseNode_spec inUse
  have shorter : (front ++ tower :: back).length = (front ++ back).length + 1 := by simp; omega
  have storedAfter : NodeStore.size (NodeStore.erase tower.id bridged.nodes) =
      (front ++ back).length := by
    rw [fewer, storedBridged, same.stored, sound.stored, shorter, Nat.add_sub_cancel]
  have heightSame : bridged.height = list.height := heightBridged.trans same.height
  have heightsSame : bridged.heights = list.heights := heightsBridged.trans same.heights
  have links : ∀ level, bridged.linkAt level = spliced.linkAt level := by
    intro level
    funext place
    exact linksBridged level place
  refine ⟨bridged, last, set, storedLast, (Body.mk.inj bodyLast').1, ?_, storedAfter, ?_,
    cmpBridged.trans same.cmp, heightsSame, ?_⟩
  · rw [sizeBridged, same.size, sound.size_eq, shorter]
  · refine usedLevels_eq_peak (fun level below => ?_) ?_
    · have linked := laid level (heightSame ▸ below) [] (front ++ back) rfl (reaches_nil level)
      rw [owner_nil] at linked
      rw [links, linked]
      rfl
    · rw [heightSame, sound.height_eq, peak_insert]
      exact Nat.le_max_left _ _
  · apply sound.erase
    · apply sound.toHoused.erase
      intro other
      show body? { bridged with nodes := NodeStore.erase tower.id bridged.nodes } other = _
      rw [bodyErased, bodyBridged, same.body?]
    · exact storedAfter
    · rfl
    · show bridged.tail = _
      rw [tailBridged, same.tail]
    · rfl
    · exact heightsSame
    · intro level below
      refine (laid level below).congr absent fun place other => ?_
      exact (linksErased level place other).trans (linksBridged level place)
    · intro level high
      rw [← above level high, ← links]
      exact linksErased level .head (by simp)

/-- **The tower behind the gap leaves the row.** -/
theorem unlink_spec (sound : Sound list (front ++ tower :: back)) {turns : List Stand}
    (marks : Turns list.height front turns) :
    ∃ after, list.unlink tower.id turns = .ok (tower.value, after) ∧ after.cmp = list.cmp ∧
      after.heights = list.heights ∧ Sound after (front ++ back) := by
  have positiveBack : ∀ other ∈ back, 0 < other.height :=
    fun other member => sound.positive other (by simp [member])
  obtain ⟨spliced, changed, same, laid, above⟩ := leaveLevels_spec marks sound.laid sound.nodup
  obtain ⟨node, fetched, -, prevNode⟩ := (sound.toHoused.congr same.body?).node_eq rfl
  have linkTower : spliced.linkAt 0 (.node tower.id) = .ok (ahead 0 back) := by
    rw [(laid 0 sound.height_pos).2]
    exact sound.linkAt_zero_node rfl
  obtain ⟨bridged, last, set, storedLast, valueLast, size, storedAfter, used, cmp, heights,
    soundAfter⟩ := takeOut_spec sound same (fun level below => (laid level below).1) above
  have enough : 1 ≤ (front ++ back).length + 1 := by omega
  refine ⟨{ bridged with
    nodes := NodeStore.erase tower.id bridged.nodes
    size := (front ++ back).length
    height := peak (front ++ back) }, ?_, cmp, heights, soundAfter⟩
  unfold unlink
  rw [changed, Checked.ok_bind, fetched, Checked.ok_bind, linkTower, Checked.ok_bind, prevNode,
    ahead_zero_next positiveBack, set, Checked.ok_bind, used, Checked.ok_bind, size,
    Checked.minus_of_le enough, Checked.ok_bind, NodeStore.take_eq_ok storedLast, Checked.ok_bind]
  simp only [storedAfter, Nat.add_sub_cancel, if_true, valueLast]
  rfl

end Erase

end OrderedCollections.SkipList

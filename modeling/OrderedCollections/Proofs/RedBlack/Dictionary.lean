/-
**Maps as dictionaries.**

A map keeps a sequence of entries, those of its nodes in order. The search for a key ends at one of
them or in a gap between two, and every operation on that key acts there: all of them hit the same
entry, or all of them miss. Nothing is asked of the comparator for this.

* `Keeps`: a map keeps these entries, in this order.
* `Hit`, `Missed`: what the operations on a key do where the search hits an entry, or misses.
* `Keeps.hit_or_missed`: every search does one or the other.
-/

import OrderedCollections.Proofs.RedBlack.WellFormed

namespace OrderedCollections.RedBlack

variable {κ ν : Type} {σ : Type → Type} [NodeStore σ]

/-- The entry of a node. -/
def Node.entry (node : Node κ ν) : κ × ν :=
  (node.key, node.value)

/-- The entry of an item. -/
def Item.entry (item : Item κ ν) : κ × ν :=
  (item.key, item.value)

/-! ### The entries of a map -/

/-- **A map ordered by `cmp` keeps these entries**, in this order, at the nodes of a red-black
tree. -/
structure Keeps (cmp : Comparator κ) (map : RedBlackMap κ ν σ) (entries : List (κ × ν)) : Prop where
  cmp_eq : map.cmp = cmp
  wellFormed : ∃ row, WellFormed map row ∧ row.map (fun cell => cell.2.entry) = entries

theorem entries_row (tree : Tree (Item κ ν)) (parent : Option NodeId) :
    (tree.row parent).map (fun cell => cell.2.entry) = tree.toList.map Item.entry := by
  rw [← Tree.items_row tree parent, List.map_map]
  rfl

theorem keeps_iff {cmp : Comparator κ} {map : RedBlackMap κ ν σ} {entries : List (κ × ν)} :
    Keeps cmp map entries ↔
      map.cmp = cmp ∧ ∃ whole, Sound map whole ∧ whole.toList.map Item.entry = entries := by
  constructor
  · rintro ⟨same, row, wellFormed, rfl⟩
    obtain ⟨whole, sound, rfl⟩ := wellFormed.sound
    exact ⟨same, whole, sound, (entries_row whole none).symm⟩
  · rintro ⟨same, whole, sound, rfl⟩
    exact ⟨same, whole.row none, sound.wellFormed, entries_row whole none⟩

theorem Keeps.unique {cmp : Comparator κ} {map : RedBlackMap κ ν σ} {entries others : List (κ × ν)}
    (keeps : Keeps cmp map entries) (keeps' : Keeps cmp map others) : entries = others := by
  obtain ⟨-, row, wellFormed, rfl⟩ := keeps
  obtain ⟨-, row', wellFormed', rfl⟩ := keeps'
  rw [wellFormed.hangs.unique wellFormed'.hangs]

/-! ### One key -/

/-- **The operations on a key hit an entry**: reading gives its value, changing changes its value and
keeps the stored key, and removing takes out this entry alone. A strict insertion is refused, and the
map stays as it is. -/
structure Hit (map : RedBlackMap κ ν σ) (key : κ) (front : List (κ × ν)) (stored : κ) (value : ν)
    (back : List (κ × ν)) : Prop where
  get? : map.get? key = .ok (some value)
  contains : map.contains key = .ok true
  put : ∀ new, ∃ after, map.put key new = .ok (some value, after) ∧
    Keeps map.cmp after (front ++ (stored, new) :: back) ∧ after.get? key = .ok (some new)
  update : ∀ new, ∃ after, map.update key new = .ok (.ok value, after) ∧
    Keeps map.cmp after (front ++ (stored, new) :: back)
  modify : ∀ change, ∃ after, map.modify key change = .ok (some (change value), after) ∧
    Keeps map.cmp after (front ++ (stored, change value) :: back)
  tryInsert : ∀ new, map.tryInsert key new = .ok (.error .duplicated, map)
  remove : ∃ after, map.remove key = .ok (some value, after) ∧
    Keeps map.cmp after (front ++ back)

/-- **The operations on a key miss**, in a gap between two entries: what reads, changes or removes
gives nothing and leaves the map as it is, and what inserts puts a new entry into the gap. The key of
the store handed out by a strict insertion is that of the new entry. -/
structure Missed (map : RedBlackMap κ ν σ) (key : κ) (front back : List (κ × ν)) : Prop where
  get? : map.get? key = .ok none
  contains : map.contains key = .ok false
  update : ∀ new, map.update key new = .ok (.error .notFound, map)
  modify : ∀ change, map.modify key change = .ok (none, map)
  remove : map.remove key = .ok (none, map)
  put : ∀ new, ∃ after, map.put key new = .ok (none, after) ∧
    Keeps map.cmp after (front ++ (key, new) :: back)
  tryInsert : ∀ new, ∃ id after, map.tryInsert key new = .ok (.ok id, after) ∧
    Keeps map.cmp after (front ++ (key, new) :: back) ∧ after.valueAt id = .ok new ∧
    ∀ change, ∃ edited, after.replaceAt id change = .ok (new, edited) ∧
      Keeps map.cmp edited (front ++ (key, change new) :: back)

section OneKey

variable {map : RedBlackMap κ ν σ} {key : κ} {place : Path (Item κ ν)} {color : Color}
  {left right : Tree (Item κ ν)} {item : Item κ ν}

theorem entries_plug :
    (place.plug (.join .left color left item right)).toList.map Item.entry =
      (place.before ++ left.toList).map Item.entry ++ item.entry ::
        (right.toList ++ place.after).map Item.entry := by
  rw [Path.toList_plug]
  simp [Tree.join]

/-- Every item has a place in the tree. -/
theorem exists_place (tree : Tree (Item κ ν)) (path : Path (Item κ ν))
    {front back : List (Item κ ν)} (split : tree.toList = front ++ item :: back) :
    ∃ place color left right,
      path.plug tree = Path.plug place (.join .left color left item right) ∧
        Path.before place ++ left.toList = path.before ++ front ∧
        right.toList ++ Path.after place = back ++ path.after := by
  induction tree generalizing path front back with
  | leaf => simp at split
  | node color left root right left_ih right_ih =>
    rw [Tree.toList_node] at split
    rcases List.append_eq_append_iff.mp split with ⟨between, rfl, rest⟩ | ⟨between, leftSplit, rest⟩
    · cases between with
      | nil =>
        obtain ⟨rfl, rfl⟩ := List.cons.inj rest
        exact ⟨path, color, left, right, rfl, by rw [List.append_nil], rfl⟩
      | cons first between =>
        obtain ⟨rfl, rightSplit⟩ := List.cons.inj rest
        obtain ⟨place, atColor, l, r, same, before, after⟩ :=
          right_ih (⟨color, .right, root, left⟩ :: path) rightSplit
        exact ⟨place, atColor, l, r, same, by rw [before, Path.before]; simp, after⟩
    · cases between with
      | nil =>
        obtain ⟨rfl, rfl⟩ := List.cons.inj rest
        rw [List.append_nil] at leftSplit
        exact ⟨path, color, left, right, rfl, by rw [leftSplit], rfl⟩
      | cons first between =>
        obtain ⟨rfl, rfl⟩ := List.cons.inj rest
        obtain ⟨place, atColor, l, r, same, before, after⟩ :=
          left_ih (⟨color, .left, root, right⟩ :: path) leftSplit
        refine ⟨place, atColor, l, r, same, ?_, ?_⟩
        · rw [before, Path.before, List.append_nil]
        · rw [after, Path.after]
          simp

/-- Every node has a place in the tree. -/
theorem Linked.exists_place_of_mem {tree : LinkedTree κ ν σ} {whole : Tree (Item κ ν)}
    {further : Multiset (NodeId × Node κ ν)} (linked : Linked tree whole further) {id : NodeId}
    {node : Node κ ν} (member : (id, node) ∈ whole.row none) (side : Side) :
    ∃ path color near item far, whole = Path.plug path (.join side color near item far) ∧
      id = item.id ∧
      node = nodeAt side item color (Path.parentId? path) near.rootId? far.rootId? := by
  have stored : NodeStore.get? id tree.nodes = some node := by
    refine (linked.stores.mem_iff id node).mp (Multiset.mem_add.mpr (Or.inl ?_))
    rwa [← Tree.mem_row]
  have inItems : cellItem (id, node) ∈ whole.toList := by
    rw [← Tree.items_row whole none]
    exact List.mem_map_of_mem member
  obtain ⟨front, back, split⟩ := List.append_of_mem inItems
  obtain ⟨path, color, left, right, whole_eq, -, -⟩ := exists_place whole [] split
  rw [Path.plug_nil] at whole_eq
  subst whole_eq
  cases side with
  | left =>
    exact ⟨path, color, left, _, right, rfl, rfl,
      Option.some.inj (stored.symm.trans linked.get?_eq)⟩
  | right =>
    rw [← Tree.join_opposite] at linked ⊢
    exact ⟨path, color, right, _, left, rfl, rfl,
      Option.some.inj (stored.symm.trans linked.get?_eq)⟩

variable [LawfulNodeStore σ]

/-- Where the search finds a node, the operations hit its entry. -/
theorem hit_of_found (sound : Sound map (place.plug (.join .left color left item right)))
    (found : map.search key = .ok (.found item.id)) :
    Hit map key ((place.before ++ left.toList).map Item.entry) item.key item.value
      ((right.toList ++ place.after).map Item.entry) := by
  have replaced : ∀ change, ∃ after, map.replaceAt item.id change = .ok (item.value, after) ∧
      Keeps map.cmp after ((place.before ++ left.toList).map Item.entry ++
        (item.key, change item.value) :: (right.toList ++ place.after).map Item.entry) ∧
      after.get? key = .ok (some (change item.value)) := by
    intro change
    obtain ⟨after, done, cmp, sameSearch, soundAfter⟩ := replaceAt_spec sound change
    refine ⟨after, done, keeps_iff.mpr ⟨cmp, _, soundAfter, entries_plug⟩, ?_⟩
    have value := valueAt_spec soundAfter
    simp only [RedBlackMap.get?, sameSearch, found, Checked.ok_bind, value, Checked.pure_eq_ok]
  refine ⟨?_, ?_, fun new => ?_, fun new => ?_, fun change => ?_, fun new => ?_, ?_⟩
  · simp only [RedBlackMap.get?, found, Checked.ok_bind, valueAt_spec sound, Checked.pure_eq_ok]
  · simp only [RedBlackMap.contains, found, Checked.ok_bind, Checked.pure_eq_ok]
  · obtain ⟨after, done, keeps, get⟩ := replaced fun _ => new
    exact ⟨after, put_of_found found done, keeps, get⟩
  · obtain ⟨after, done, keeps, -⟩ := replaced fun _ => new
    exact ⟨after, update_of_found found done, keeps⟩
  · obtain ⟨after, done, keeps, -⟩ := replaced change
    refine ⟨after, ?_, keeps⟩
    simp only [RedBlackMap.modify, found, Checked.ok_bind, done, Checked.pure_eq_ok]
  · simp only [RedBlackMap.tryInsert, found, Checked.ok_bind, Checked.pure_eq_ok]
  · obtain ⟨node, after, whole, deleted, value, cmp, soundAfter, same⟩ := delete_item_spec sound
    refine ⟨after, value ▸ remove_of_found found deleted,
      keeps_iff.mpr ⟨cmp, whole, soundAfter, ?_⟩⟩
    rw [same]
    simp

/-- Where the search ends at a vacant place, the operations miss. -/
theorem missed_of_vacant (sound : Sound map (place.plug .leaf)) {side : Side}
    (onSide : ∀ frame ∈ place.head?, frame.side = side)
    (vacant : map.search key = .ok (.vacant place.parentId? side)) :
    Missed map key (place.before.map Item.entry) (place.after.map Item.entry) := by
  refine ⟨?_, ?_, fun new => ?_, fun change => ?_, ?_, fun new => ?_, fun new => ?_⟩
  · simp only [RedBlackMap.get?, vacant, Checked.ok_bind, Checked.pure_eq_ok]
  · simp only [RedBlackMap.contains, vacant, Checked.ok_bind, Checked.pure_eq_ok]
  · simp only [RedBlackMap.update, vacant, Checked.ok_bind, Checked.pure_eq_ok]
  · simp only [RedBlackMap.modify, vacant, Checked.ok_bind, Checked.pure_eq_ok]
  · simp only [RedBlackMap.remove, vacant, Checked.ok_bind, Checked.pure_eq_ok]
  · obtain ⟨id, after, whole, attached, cmp, soundAfter, same⟩ := attach_spec sound onSide key new
    refine ⟨after, put_of_vacant vacant attached, keeps_iff.mpr ⟨cmp, whole, soundAfter, ?_⟩⟩
    rw [same, List.map_append, List.map_cons]
    rfl
  · obtain ⟨id, after, whole, attached, cmp, soundAfter, same⟩ := attach_spec sound onSide key new
    obtain ⟨inside, color, left, right, rfl, before, behind⟩ := exists_place whole [] same
    have entries : ∀ item : Item κ ν,
        (Path.plug inside (.join .left color left item right)).toList.map Item.entry =
          place.before.map Item.entry ++ item.entry :: place.after.map Item.entry := by
      intro item
      rw [entries_plug, before, behind, Path.before, Path.after, List.nil_append, List.append_nil]
    refine ⟨id, after, tryInsert_of_vacant vacant attached,
      keeps_iff.mpr ⟨cmp, _, soundAfter, entries _⟩, valueAt_spec soundAfter, fun change => ?_⟩
    obtain ⟨edited, done, cmpEdited, -, soundEdited⟩ := replaceAt_spec soundAfter change
    exact ⟨edited, done, keeps_iff.mpr ⟨cmpEdited.trans cmp, _, soundEdited, entries _⟩⟩

end OneKey

/-! ### Every key -/

/-- Every entry before the gap is below the key, and every one behind it above. -/
structure Between (cmp : Comparator κ) (key : κ) (front back : List (κ × ν)) : Prop where
  above_front : ∀ entry ∈ front, cmp key entry.1 = .gt
  below_back : ∀ entry ∈ back, cmp key entry.1 = .lt

/-- **Strictly ascending keys.** -/
def Ascending (cmp : Comparator κ) (entries : List (κ × ν)) : Prop :=
  entries.Pairwise fun first second => cmp first.1 second.1 = .lt

/-- The search leads past all entries of an ascending tree: those beside the path stand further from
the key than the node above them. -/
theorem Path.Leads.between {cmp : Comparator κ} (contract : cmp.Contract) {key : κ}
    {path : Path (Item κ ν)} (leads : path.Leads cmp key)
    (ascending : Ascending cmp ((path.before ++ path.after).map Item.entry)) :
    Between cmp key (path.before.map Item.entry) (path.after.map Item.entry) := by
  induction path with
  | nil => exact ⟨List.forall_mem_nil _, List.forall_mem_nil _⟩
  | cons frame above ih =>
    obtain ⟨color, side, item, sibling⟩ := frame
    have answer := leads _ List.mem_cons_self
    have leadsAbove : Path.Leads cmp key above :=
      fun other member => leads other (List.mem_cons_of_mem _ member)
    unfold Ascending at ascending
    rw [List.pairwise_map] at ascending
    cases side with
    | left =>
      simp only [Path.before, Path.after, List.append_nil, List.pairwise_append,
        List.pairwise_cons] at ascending ⊢
      obtain ⟨frontAscending, ⟨⟨itemBelow, -⟩, backAscending, -⟩, across⟩ := ascending
      have gap := ih leadsAbove (List.pairwise_map.mpr (List.pairwise_append.mpr
        ⟨frontAscending, backAscending,
          fun first before second behind => across first before second (by simp [behind])⟩))
      refine ⟨gap.above_front, ?_⟩
      rw [List.map_append, List.forall_mem_append, List.map_cons, List.forall_mem_cons,
        List.forall_mem_map]
      exact ⟨⟨answer, fun other member => contract.lt_trans answer (itemBelow other member)⟩,
        gap.below_back⟩
    | right =>
      simp only [Path.before, Path.after, List.nil_append, List.pairwise_append] at ascending ⊢
      obtain ⟨⟨frontAscending, ⟨-, -, siblingBelow⟩, -⟩, backAscending, across⟩ := ascending
      have gap := ih leadsAbove (List.pairwise_map.mpr (List.pairwise_append.mpr
        ⟨frontAscending, backAscending,
          fun first before second behind => across first (by simp [before]) second behind⟩))
      refine ⟨?_, gap.below_back⟩
      rw [List.map_append, List.forall_mem_append, List.map_append, List.forall_mem_append]
      refine ⟨gap.above_front, List.forall_mem_map.mpr fun other member => ?_, ?_⟩
      · have below := siblingBelow other member item List.mem_cons_self
        exact contract.gt_trans answer (contract.gt_iff_lt.mpr below)
      · exact fun entry member => List.mem_singleton.mp member ▸ answer

/-- **Every search hits an entry or misses**, whatever the comparator answers. Where the entries
ascend, it misses in the gap where the key belongs. -/
theorem Keeps.hit_or_missed [LawfulNodeStore σ] {cmp : Comparator κ} {map : RedBlackMap κ ν σ}
    {entries : List (κ × ν)} (keeps : Keeps cmp map entries) (key : κ) :
    (∃ front stored value back, entries = front ++ (stored, value) :: back ∧
      cmp key stored = .eq ∧ Hit map key front stored value back) ∨
    ∃ front back, entries = front ++ back ∧ Missed map key front back ∧
      (cmp.Contract → Ascending cmp entries → Between cmp key front back) := by
  obtain ⟨rfl, whole, sound, rfl⟩ := keeps_iff.mp keeps
  rcases sound.found_or_vacant key with ⟨place, color, left, item, right, rfl, equal, found⟩ |
    ⟨place, side, rfl, leads, onSide, vacant⟩
  · exact Or.inl ⟨_, _, _, _, entries_plug, equal, hit_of_found sound found⟩
  · have items : (place.plug .leaf).toList = place.before ++ place.after := Path.toList_plug ..
    rw [items]
    exact Or.inr ⟨_, _, List.map_append, missed_of_vacant sound onSide vacant,
      fun contract ascending => leads.between contract ascending⟩

end OrderedCollections.RedBlack

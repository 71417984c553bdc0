/-
**What a change leaves alone.**

A skip list is changed one link, one neighbour or one node at a time. Two views tell the links apart
from the rest: `linkAt` answers the link of an owner on a level, and `body?` answers what a tower
holds beside its links. Each small change is described by what it does to both views.

* `SameBodies`: nothing but links changed.
* `setNode_spec`: another node.
* `setLink_spec`: another link, all others as they were.
* `setBefore_spec`: another neighbour, all links as they were.
* `insertNode_spec`, `eraseNode_spec`: a node more, a node less.
* `LevelWise`, `changeLevels_spec`: a change on every level is one that each level sees alone.
-/

import OrderedCollections.SkipList.Splice

namespace OrderedCollections.SkipList

variable {α ρ : Type} {σ : Type → Type} [NodeStore σ]

/-! ### The two views -/

/-- What a tower holds beside its links. -/
structure Body (α : Type) where
  value : α
  prev : Option NodeId
  height : Nat

/-- What a node holds beside its links. -/
def Node.body (node : Node α) : Body α :=
  ⟨node.value, node.prev, node.links.length⟩

/-- What the tower under a key holds beside its links. -/
def body? (list : SkipList α ρ σ) (id : NodeId) : Option (Body α) :=
  (NodeStore.get? id list.nodes).map Node.body

/-- Nothing but links changed. -/
structure SameBodies (list after : SkipList α ρ σ) : Prop where
  cmp : after.cmp = list.cmp
  heights : after.heights = list.heights
  tail : after.tail = list.tail
  size : after.size = list.size
  height : after.height = list.height
  stored : NodeStore.size after.nodes = NodeStore.size list.nodes
  body? : ∀ id, after.body? id = list.body? id

namespace SameBodies

theorem refl (list : SkipList α ρ σ) : SameBodies list list :=
  ⟨rfl, rfl, rfl, rfl, rfl, rfl, fun _ => rfl⟩

theorem trans {list middle after : SkipList α ρ σ} (first : SameBodies list middle)
    (second : SameBodies middle after) : SameBodies list after where
  cmp := second.cmp.trans first.cmp
  heights := second.heights.trans first.heights
  tail := second.tail.trans first.tail
  size := second.size.trans first.size
  height := second.height.trans first.height
  stored := second.stored.trans first.stored
  body? id := (second.body? id).trans (first.body? id)

end SameBodies

theorem node_of_body? {list : SkipList α ρ σ} {id : NodeId} {body : Body α}
    (held : list.body? id = some body) :
    ∃ node, NodeStore.get? id list.nodes = some node ∧ list.node id = .ok node ∧
      node.body = body := by
  obtain ⟨node, stored, same⟩ := Option.map_eq_some_iff.mp held
  exact ⟨node, stored, NodeStore.fetch_eq_ok stored, same⟩

theorem linkAt_node {list : SkipList α ρ σ} {id : NodeId} {node : Node α}
    (stored : NodeStore.get? id list.nodes = some node) (level : Nat) :
    list.linkAt level (.node id) = .ofOption .missingLevel node.links[level]? := by
  simp only [linkAt, SkipList.node, NodeStore.fetch_eq_ok stored, Checked.ok_bind]

/-- A link depends on the header, or on the node that owns it. -/
theorem linkAt_congr {list after : SkipList α ρ σ} {level : Nat} {owner : Cursor}
    (head : owner = .head → after.head[level]? = list.head[level]?)
    (node : ∀ id, owner = .node id →
      NodeStore.get? id after.nodes = NodeStore.get? id list.nodes) :
    after.linkAt level owner = list.linkAt level owner := by
  cases owner with
  | head => simp only [linkAt, head rfl]
  | node id => simp only [linkAt, SkipList.node, NodeStore.fetch, node id rfl]

/-- An owner of a link is the header, or a node with that level. -/
theorem owner_of_linkAt {list : SkipList α ρ σ} {level : Nat} {id : NodeId} {link : Link}
    (present : list.linkAt level (.node id) = .ok link) :
    ∃ node, NodeStore.get? id list.nodes = some node ∧ node.links[level]? = some link := by
  cases stored : NodeStore.get? id list.nodes with
  | none =>
    simp only [linkAt, SkipList.node, NodeStore.fetch, stored] at present
    cases present
  | some node =>
    rw [linkAt_node stored, Checked.ofOption_eq_ok] at present
    exact ⟨node, rfl, present⟩

/-! ### One change at a time -/

section Changes

variable [LawfulNodeStore σ]

/-- A node can be replaced, and nothing else changes. -/
theorem setNode_spec {list : SkipList α ρ σ} {id : NodeId} {node : Node α}
    (stored : NodeStore.get? id list.nodes = some node) (changed : Node α) :
    NodeStore.size (NodeStore.set id changed list.nodes) = NodeStore.size list.nodes ∧
      (∀ other, body? { list with nodes := NodeStore.set id changed list.nodes } other =
        if other = id then some changed.body else list.body? other) ∧
      (∀ level, linkAt { list with nodes := NodeStore.set id changed list.nodes } level (.node id) =
        .ofOption .missingLevel changed.links[level]?) ∧
      ∀ level owner, owner ≠ .node id →
        linkAt { list with nodes := NodeStore.set id changed list.nodes } level owner =
          list.linkAt level owner := by
  have inUse : (NodeStore.get? id list.nodes).isSome := by
    rw [stored]
    rfl
  have others : ∀ other, NodeStore.get? other (NodeStore.set id changed list.nodes) =
      if other = id then some changed else NodeStore.get? other list.nodes :=
    LawfulNodeStore.get?_set inUse changed
  refine ⟨LawfulNodeStore.size_set inUse changed, fun other => ?_, fun level => ?_,
    fun level owner different => ?_⟩
  · unfold body?
    rw [others]
    by_cases same : other = id
    · rw [if_pos same, if_pos same]
      rfl
    · rw [if_neg same, if_neg same]
  · exact linkAt_node ((others id).trans (if_pos rfl)) level
  · refine linkAt_congr (fun _ => rfl) fun other isOther => ?_
    rw [others, if_neg fun equal => different (by rw [isOther, equal])]

/-- The link of an owner that has one can be replaced, and nothing else changes. -/
theorem setLink_spec {list : SkipList α ρ σ} {level : Nat} {owner : Cursor} {old : Link}
    (present : list.linkAt level owner = .ok old) (link : Link) :
    ∃ after, list.setLink level link owner = .ok after ∧ SameBodies list after ∧
      ∀ other place, after.linkAt other place =
        if other = level ∧ place = owner then .ok link else list.linkAt other place := by
  cases owner with
  | head =>
    have inside : level < heightLimit := by
      unfold linkAt at present
      rw [Checked.ofOption_eq_ok] at present
      exact (Vector.getElem?_eq_some_iff.mp present).1
    refine ⟨{ list with head := list.head.set level link }, dif_pos inside,
      ⟨rfl, rfl, rfl, rfl, rfl, rfl, fun _ => rfl⟩, fun other place => ?_⟩
    by_cases same : other = level ∧ place = .head
    · obtain ⟨rfl, rfl⟩ := same
      simp [linkAt, inside]
    · rw [if_neg same]
      refine linkAt_congr (fun isHead => ?_) fun id _ => rfl
      have different : level ≠ other := fun equal => same ⟨equal.symm, isHead⟩
      exact Vector.getElem?_set_ne inside different
  | node id =>
    obtain ⟨node, stored, linked⟩ := owner_of_linkAt present
    have inside : level < node.links.length := (List.getElem?_eq_some_iff.mp linked).1
    let changed : Node α := { node with links := node.links.set level link }
    obtain ⟨size, bodies, linksHere, linksElsewhere⟩ := setNode_spec stored changed
    refine ⟨{ list with nodes := NodeStore.set id changed list.nodes }, ?_,
      ⟨rfl, rfl, rfl, rfl, rfl, size, fun other => ?_⟩, fun other place => ?_⟩
    · unfold setLink SkipList.node
      simp only [NodeStore.fetch_eq_ok stored, Checked.ok_bind, if_pos inside, Checked.pure_eq_ok]
      rfl
    · rw [bodies]
      by_cases same : other = id
      · rw [if_pos same, same, body?, stored]
        simp [Node.body, changed]
      · rw [if_neg same]
    · by_cases here : place = .node id
      · subst here
        rw [linksHere, linkAt_node stored]
        by_cases sameLevel : other = level
        · subst sameLevel
          rw [if_pos ⟨rfl, rfl⟩]
          simp [changed, inside]
        · rw [if_neg fun same => sameLevel same.1]
          simp only [changed, List.getElem?_set_ne (Ne.symm sameLevel)]
      · rw [if_neg fun same => here same.2]
        exact linksElsewhere other place here

/-- The tower before one, or the last tower, can be replaced, and nothing else changes. -/
theorem setBefore_spec {list : SkipList α ρ σ} {place : Option NodeId}
    (held : ∀ id ∈ place, (list.body? id).isSome) (before : Option NodeId) :
    ∃ after, list.setBefore before place = .ok after ∧
      after.cmp = list.cmp ∧ after.heights = list.heights ∧ after.head = list.head ∧
      after.size = list.size ∧ after.height = list.height ∧
      NodeStore.size after.nodes = NodeStore.size list.nodes ∧
      after.tail = (if place = none then before else list.tail) ∧
      (∀ id, after.body? id = if some id = place
        then (list.body? id).map fun body => { body with prev := before } else list.body? id) ∧
      ∀ level owner, after.linkAt level owner = list.linkAt level owner := by
  cases place with
  | none =>
    exact ⟨_, rfl, rfl, rfl, rfl, rfl, rfl, rfl, (if_pos rfl).symm,
      fun id => (if_neg (Option.some_ne_none id)).symm, fun _ _ => rfl⟩
  | some id =>
    obtain ⟨body, holds⟩ := Option.isSome_iff_exists.mp (held id rfl)
    obtain ⟨node, stored, -, rfl⟩ := node_of_body? holds
    let changed : Node α := { node with prev := before }
    obtain ⟨size, bodies, linksHere, linksElsewhere⟩ := setNode_spec stored changed
    refine ⟨{ list with nodes := NodeStore.set id changed list.nodes }, ?_, rfl, rfl, rfl, rfl, rfl,
      size, (if_neg (Option.some_ne_none id)).symm, fun other => ?_, fun level owner => ?_⟩
    · unfold setBefore
      simp only [NodeStore.modify_eq_ok stored, Checked.ok_bind, Checked.pure_eq_ok]
      rfl
    · rw [bodies]
      by_cases same : other = id
      · rw [if_pos same, if_pos (congrArg some same), same, holds]
        rfl
      · rw [if_neg same, if_neg fun equal => same (Option.some.inj equal)]
    · by_cases same : owner = .node id
      · subst same
        rw [linksHere, linkAt_node stored]
      · exact linksElsewhere level owner same

/-- A node more: its key is new, and nothing else changes. -/
theorem insertNode_spec {list : SkipList α ρ σ} {node : Node α} {id : NodeId}
    {nodes : σ (Node α)} (inserted : NodeStore.insert node list.nodes = (id, nodes)) :
    list.body? id = none ∧ NodeStore.size nodes = NodeStore.size list.nodes + 1 ∧
      (∀ other, body? { list with nodes := nodes } other =
        if other = id then some node.body else list.body? other) ∧
      (∀ level, linkAt { list with nodes := nodes } level (.node id) =
        .ofOption .missingLevel node.links[level]?) ∧
      ∀ level owner, owner ≠ .node id →
        linkAt { list with nodes := nodes } level owner = list.linkAt level owner := by
  have new := LawfulNodeStore.get?_new node list.nodes
  have more := LawfulNodeStore.size_insert node list.nodes
  have others := LawfulNodeStore.get?_insert node list.nodes
  rw [inserted] at new more others
  refine ⟨?_, more, fun other => ?_, fun level => ?_, fun level owner different => ?_⟩
  · unfold body?
    rw [new]
    rfl
  · unfold body?
    rw [others]
    by_cases same : other = id
    · rw [if_pos same, if_pos same]
      rfl
    · rw [if_neg same, if_neg same]
  · exact linkAt_node ((others id).trans (if_pos rfl)) level
  · refine linkAt_congr (fun _ => rfl) fun other isOther => ?_
    exact (others other).trans (if_neg fun equal => different (by rw [isOther, equal]))

/-- A node less: nothing else changes. -/
theorem eraseNode_spec {list : SkipList α ρ σ} {id : NodeId} (held : (list.body? id).isSome) :
    let after := { list with nodes := NodeStore.erase id list.nodes }
    NodeStore.size after.nodes = NodeStore.size list.nodes - 1 ∧
      (∀ other, after.body? other = if other = id then none else list.body? other) ∧
      ∀ level owner, owner ≠ .node id → after.linkAt level owner = list.linkAt level owner := by
  intro after
  have inUse : (NodeStore.get? id list.nodes).isSome := by
    rwa [body?, Option.isSome_map] at held
  have others : ∀ other, NodeStore.get? other after.nodes =
      if other = id then none else NodeStore.get? other list.nodes :=
    LawfulNodeStore.get?_erase inUse
  refine ⟨LawfulNodeStore.size_erase inUse, fun other => ?_, fun level owner different => ?_⟩
  · unfold body?
    rw [others]
    by_cases same : other = id
    · rw [if_pos same, if_pos same]
      rfl
    · rw [if_neg same, if_neg same]
  · refine linkAt_congr (fun _ => rfl) fun other isOther => ?_
    rw [others, if_neg fun equal => different (by rw [isOther, equal])]

end Changes

/-! ### Changes on all levels -/

/-- On each level, with its links as they were, a change makes links that are as wanted there, and
leaves all other levels alone. -/
def LevelWise (change : Nat → Stand → SkipList α ρ σ → Checked (SkipList α ρ σ))
    (wanted : Nat → (Cursor → Checked Link) → Prop) (turns : List Stand) (list : SkipList α ρ σ) :
    Prop :=
  ∀ level turn, turns[level]? = some turn → ∀ before : SkipList α ρ σ,
    SameBodies list before → before.linkAt level = list.linkAt level →
    ∃ after, change level turn before = .ok after ∧ SameBodies before after ∧
      wanted level (after.linkAt level) ∧
      ∀ other, other ≠ level → after.linkAt other = before.linkAt other

section LevelWise

variable {change : Nat → Stand → SkipList α ρ σ → Checked (SkipList α ρ σ)}
  {wanted : Nat → (Cursor → Checked Link) → Prop} {list : SkipList α ρ σ}

/-- The changes on the levels that are still to come, after those on the levels below. -/
theorem changeRest_spec {turns : List Stand} (step : LevelWise change wanted turns list)
    (rest done : List Stand) (split : done ++ rest = turns) {before : SkipList α ρ σ}
    (same : SameBodies list before)
    (below : ∀ level < done.length, wanted level (before.linkAt level))
    (above : ∀ level, done.length ≤ level → before.linkAt level = list.linkAt level) :
    ∃ after, (rest.zipIdx done.length).foldlM
        (fun list indexed => change indexed.2 indexed.1 list) before = .ok after ∧
      SameBodies list after ∧ (∀ level < turns.length, wanted level (after.linkAt level)) ∧
      ∀ level, turns.length ≤ level → after.linkAt level = list.linkAt level := by
  induction rest generalizing done before with
  | nil =>
    rw [List.append_nil] at split
    subst split
    exact ⟨before, rfl, same, below, above⟩
  | cons turn rest ih =>
    have here : turns[done.length]? = some turn := by
      rw [← split, List.getElem?_append_right (Nat.le_refl _), Nat.sub_self]
      rfl
    obtain ⟨after, changed, sameAfter, good, others⟩ :=
      step done.length turn here before same (above done.length (Nat.le_refl _))
    have longer : (done ++ [turn]).length = done.length + 1 := List.length_append
    have continued := ih (done ++ [turn]) (by rw [← split]; simp) (same.trans sameAfter)
      (fun level less => ?_) (fun level more => ?_)
    · rw [longer] at continued
      simp only [List.zipIdx_cons, List.foldlM_cons, changed, Checked.ok_bind]
      exact continued
    · rw [longer] at less
      rcases Nat.lt_succ_iff_lt_or_eq.mp less with earlier | rfl
      · rw [others level (Nat.ne_of_lt earlier)]
        exact below level earlier
      · exact good
    · rw [longer] at more
      rw [others level (by omega)]
      exact above level (by omega)

/-- **A change on every level** makes links that are as wanted on all of them. -/
theorem changeLevels_spec {turns : List Stand} (step : LevelWise change wanted turns list) :
    ∃ after, changeLevels change turns list = .ok after ∧ SameBodies list after ∧
      (∀ level < turns.length, wanted level (after.linkAt level)) ∧
      ∀ level, turns.length ≤ level → after.linkAt level = list.linkAt level :=
  changeRest_spec step turns [] (List.nil_append turns) (.refl list)
    (fun level below => absurd below (Nat.not_lt_zero level)) fun _ _ => rfl

end LevelWise

end OrderedCollections.SkipList

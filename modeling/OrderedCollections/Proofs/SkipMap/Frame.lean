/-
**What a change leaves alone.**

A skip map is changed one link or one node at a time. Two views tell the links apart from the rest:
`forwardAt` answers where an owner leads on a level, and `body?` answers what a tower holds beside
its links. Each small change is described by what it does to both views.

* `SameBodies`: nothing but links changed.
* `setNode_spec`: another node.
* `setForward_spec`: another link, all others as they were.
* `insertNode_spec`, `eraseNode_spec`: a node more, a node less.
-/

import OrderedCollections.SkipMap.Splice

namespace OrderedCollections.SkipMap

open SkipList (Cursor)

variable {κ ν ρ : Type} {σ : Type → Type} [NodeStore σ]

/-! ### The two views -/

/-- What a tower holds beside its links. -/
structure Body (κ ν : Type) where
  entry : κ × ν
  height : Nat

/-- What a node holds beside its links. -/
def Node.body (node : Node κ ν) : Body κ ν :=
  ⟨(node.key, node.value), node.forward.length⟩

/-- What the tower under a key of the store holds beside its links. -/
def body? (map : SkipMap κ ν ρ σ) (id : NodeId) : Option (Body κ ν) :=
  (NodeStore.get? id map.nodes).map Node.body

/-- Nothing but links changed. -/
structure SameBodies (map after : SkipMap κ ν ρ σ) : Prop where
  cmp : after.cmp = map.cmp
  heights : after.heights = map.heights
  size : after.size = map.size
  height : after.height = map.height
  stored : NodeStore.size after.nodes = NodeStore.size map.nodes
  body? : ∀ id, after.body? id = map.body? id

namespace SameBodies

theorem refl (map : SkipMap κ ν ρ σ) : SameBodies map map :=
  ⟨rfl, rfl, rfl, rfl, rfl, fun _ => rfl⟩

theorem trans {map middle after : SkipMap κ ν ρ σ} (first : SameBodies map middle)
    (second : SameBodies middle after) : SameBodies map after where
  cmp := second.cmp.trans first.cmp
  heights := second.heights.trans first.heights
  size := second.size.trans first.size
  height := second.height.trans first.height
  stored := second.stored.trans first.stored
  body? id := (second.body? id).trans (first.body? id)

end SameBodies

theorem node_of_body? {map : SkipMap κ ν ρ σ} {id : NodeId} {body : Body κ ν}
    (held : map.body? id = some body) :
    ∃ node, NodeStore.get? id map.nodes = some node ∧ map.node id = .ok node ∧
      node.body = body := by
  obtain ⟨node, stored, same⟩ := Option.map_eq_some_iff.mp held
  exact ⟨node, stored, NodeStore.fetch_eq_ok stored, same⟩

theorem forwardAt_node {map : SkipMap κ ν ρ σ} {id : NodeId} {node : Node κ ν}
    (stored : NodeStore.get? id map.nodes = some node) (level : Nat) :
    map.forwardAt level (.node id) = .ofOption .missingLevel node.forward[level]? := by
  simp only [forwardAt, SkipMap.node, NodeStore.fetch_eq_ok stored, Checked.ok_bind]

/-- A link depends on the header, or on the node that owns it. -/
theorem forwardAt_congr {map after : SkipMap κ ν ρ σ} {level : Nat} {owner : Cursor}
    (head : owner = .head → after.head[level]? = map.head[level]?)
    (node : ∀ id, owner = .node id →
      NodeStore.get? id after.nodes = NodeStore.get? id map.nodes) :
    after.forwardAt level owner = map.forwardAt level owner := by
  cases owner with
  | head => simp only [forwardAt, head rfl]
  | node id => simp only [forwardAt, SkipMap.node, NodeStore.fetch, node id rfl]

/-- An owner of a link is the header, or a node with that level. -/
theorem owner_of_forwardAt {map : SkipMap κ ν ρ σ} {level : Nat} {id : NodeId}
    {next : Option NodeId} (present : map.forwardAt level (.node id) = .ok next) :
    ∃ node, NodeStore.get? id map.nodes = some node ∧ node.forward[level]? = some next := by
  cases stored : NodeStore.get? id map.nodes with
  | none =>
    simp only [forwardAt, SkipMap.node, NodeStore.fetch, stored] at present
    cases present
  | some node =>
    rw [forwardAt_node stored, Checked.ofOption_eq_ok] at present
    exact ⟨node, rfl, present⟩

/-! ### One change at a time -/

section Changes

variable [LawfulNodeStore σ]

/-- A node can be replaced, and nothing else changes. -/
theorem setNode_spec {map : SkipMap κ ν ρ σ} {id : NodeId} {node : Node κ ν}
    (stored : NodeStore.get? id map.nodes = some node) (changed : Node κ ν) :
    NodeStore.size (NodeStore.set id changed map.nodes) = NodeStore.size map.nodes ∧
      (∀ other, body? { map with nodes := NodeStore.set id changed map.nodes } other =
        if other = id then some changed.body else map.body? other) ∧
      (∀ level,
        forwardAt { map with nodes := NodeStore.set id changed map.nodes } level (.node id) =
          .ofOption .missingLevel changed.forward[level]?) ∧
      ∀ level owner, owner ≠ .node id →
        forwardAt { map with nodes := NodeStore.set id changed map.nodes } level owner =
          map.forwardAt level owner := by
  have inUse : (NodeStore.get? id map.nodes).isSome := by
    rw [stored]
    rfl
  have others : ∀ other, NodeStore.get? other (NodeStore.set id changed map.nodes) =
      if other = id then some changed else NodeStore.get? other map.nodes :=
    LawfulNodeStore.get?_set inUse changed
  refine ⟨LawfulNodeStore.size_set inUse changed, fun other => ?_, fun level => ?_,
    fun level owner different => ?_⟩
  · rw [body?, others, apply_ite (Option.map Node.body)]
    rfl
  · exact forwardAt_node ((others id).trans (if_pos rfl)) level
  · refine forwardAt_congr (fun _ => rfl) fun other isOther => ?_
    rw [others, if_neg fun equal => different (by rw [isOther, equal])]

/-- The link of an owner that has one can be replaced, and nothing else changes. -/
theorem setForward_spec {map : SkipMap κ ν ρ σ} {level : Nat} {owner : Cursor}
    {old : Option NodeId} (present : map.forwardAt level owner = .ok old) (next : Option NodeId) :
    ∃ after, map.setForward level next owner = .ok after ∧ SameBodies map after ∧
      ∀ other place, after.forwardAt other place =
        if other = level ∧ place = owner then .ok next else map.forwardAt other place := by
  cases owner with
  | head =>
    have inside : level < heightLimit := by
      unfold forwardAt at present
      rw [Checked.ofOption_eq_ok] at present
      exact (Vector.getElem?_eq_some_iff.mp present).1
    refine ⟨{ map with head := map.head.set level next }, dif_pos inside,
      ⟨rfl, rfl, rfl, rfl, rfl, fun _ => rfl⟩, fun other place => ?_⟩
    by_cases same : other = level ∧ place = .head
    · obtain ⟨rfl, rfl⟩ := same
      simp [forwardAt, inside]
    · rw [if_neg same]
      refine forwardAt_congr (fun isHead => ?_) fun id _ => rfl
      have different : level ≠ other := fun equal => same ⟨equal.symm, isHead⟩
      exact Vector.getElem?_set_ne inside different
  | node id =>
    obtain ⟨node, stored, linked⟩ := owner_of_forwardAt present
    have inside : level < node.forward.length := (List.getElem?_eq_some_iff.mp linked).1
    let changed : Node κ ν := { node with forward := node.forward.set level next }
    obtain ⟨size, bodies, linksHere, linksElsewhere⟩ := setNode_spec stored changed
    refine ⟨{ map with nodes := NodeStore.set id changed map.nodes }, ?_,
      ⟨rfl, rfl, rfl, rfl, size, fun other => ?_⟩, fun other place => ?_⟩
    · unfold setForward SkipMap.node
      simp only [NodeStore.fetch_eq_ok stored, Checked.ok_bind, if_pos inside, Checked.pure_eq_ok]
      rfl
    · rw [bodies]
      by_cases same : other = id
      · rw [if_pos same, same, body?, stored]
        simp [Node.body, changed]
      · rw [if_neg same]
    · by_cases here : place = .node id
      · subst here
        rw [linksHere, forwardAt_node stored]
        by_cases sameLevel : other = level
        · subst sameLevel
          rw [if_pos ⟨rfl, rfl⟩]
          simp [changed, inside]
        · rw [if_neg fun same => sameLevel same.1]
          simp only [changed, List.getElem?_set_ne (Ne.symm sameLevel)]
      · rw [if_neg fun same => here same.2]
        exact linksElsewhere other place here

/-- A node more: its key is new, and nothing else changes. -/
theorem insertNode_spec {map : SkipMap κ ν ρ σ} {node : Node κ ν} {id : NodeId}
    {nodes : σ (Node κ ν)} (inserted : NodeStore.insert node map.nodes = (id, nodes)) :
    map.body? id = none ∧ NodeStore.size nodes = NodeStore.size map.nodes + 1 ∧
      (∀ other, body? { map with nodes := nodes } other =
        if other = id then some node.body else map.body? other) ∧
      (∀ level, forwardAt { map with nodes := nodes } level (.node id) =
        .ofOption .missingLevel node.forward[level]?) ∧
      ∀ level owner, owner ≠ .node id →
        forwardAt { map with nodes := nodes } level owner = map.forwardAt level owner := by
  have new := LawfulNodeStore.get?_new node map.nodes
  have more := LawfulNodeStore.size_insert node map.nodes
  have others := LawfulNodeStore.get?_insert node map.nodes
  rw [inserted] at new more others
  refine ⟨?_, more, fun other => ?_, fun level => ?_, fun level owner different => ?_⟩
  · unfold body?
    rw [new]
    rfl
  · rw [body?, others, apply_ite (Option.map Node.body)]
    rfl
  · exact forwardAt_node ((others id).trans (if_pos rfl)) level
  · refine forwardAt_congr (fun _ => rfl) fun other isOther => ?_
    exact (others other).trans (if_neg fun equal => different (by rw [isOther, equal]))

/-- A node less: nothing else changes. -/
theorem eraseNode_spec {map : SkipMap κ ν ρ σ} {id : NodeId} (held : (map.body? id).isSome) :
    let after := { map with nodes := NodeStore.erase id map.nodes }
    NodeStore.size after.nodes = NodeStore.size map.nodes - 1 ∧
      (∀ other, after.body? other = if other = id then none else map.body? other) ∧
      ∀ level owner, owner ≠ .node id → after.forwardAt level owner = map.forwardAt level owner := by
  intro after
  have inUse : (NodeStore.get? id map.nodes).isSome := by
    rwa [body?, Option.isSome_map] at held
  have others : ∀ other, NodeStore.get? other after.nodes =
      if other = id then none else NodeStore.get? other map.nodes :=
    LawfulNodeStore.get?_erase inUse
  refine ⟨LawfulNodeStore.size_erase inUse, fun other => ?_, fun level owner different => ?_⟩
  · rw [body?, others, apply_ite (Option.map Node.body)]
    rfl
  · refine forwardAt_congr (fun _ => rfl) fun other isOther => ?_
    rw [others, if_neg fun equal => different (by rw [isOther, equal])]

end Changes

end OrderedCollections.SkipMap

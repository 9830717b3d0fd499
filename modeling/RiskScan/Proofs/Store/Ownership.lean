import RiskScan.Proofs.Store.Arena
/-!
# Ownership

A node has at most one owner: the node that has it among its children. A tree grows by registering a
detached node together with everything below it. That this never meets a node twice, nor one of
another tree, is not checked on the way. It follows from what is checked before: whatever is linked
to a parent has no parent yet, and neither has a root. So all owners of detached nodes are detached,
except the one under which a registration has begun.

While a registration is going on, some nodes are *due*: their owners are registered, they themselves
are not yet. Other nodes are registered and have not been told their parents yet.
-/

namespace RiskScan.Store

def Owns (store : Store) (parent child : NodeId) : Prop :=
  child ∈ (store.node parent).children

/-- Nodes are owned at most once, and those that are say so. -/
structure Linked (store : Store) : Prop where
  unique {first second child : NodeId} : store.Owns first child → store.Owns second child →
    first = second
  nodup (id : NodeId) : (store.node id).children.Nodup
  hasParent_iff (id : NodeId) : (store.node id).hasParent = true ↔ ∃ parent, store.Owns parent id

/-- The nodes that are still to be registered in a tree. -/
structure Due (tree : TreeId) (due : List NodeId) (store : Store) : Prop where
  nodup : due.Nodup
  detached {id : NodeId} : id ∈ due → (store.node id).membership = none
  owner_attached {id parent : NodeId} : id ∈ due → store.Owns parent id →
    ∃ home, (store.node parent).membership = some home
  root_or_hasParent {id : NodeId} : id ∈ due →
    id = (store.tree tree).root ∨ (store.node id).hasParent = true

/-- Trees are strict, up to nodes that are due in one of them, and to open nodes, which have not
been told their parents. -/
structure StrictWithin (tree : TreeId) (due open_ : List NodeId) (store : Store) : Prop where
  sound : ArenaSound store
  linked : Linked store
  isDue : Due tree due store
  open_attached {id : NodeId} : id ∈ open_ → ∃ home, (store.node id).membership = some home
  child_of_detached {parent child : NodeId} : store.Owns parent child →
    (store.node parent).membership = none → (store.node child).membership = none
  child_of_attached {parent child : NodeId} {home : Membership} : store.Owns parent child →
    (store.node parent).membership = some home →
    (∃ slot, home.slot < slot ∧ (store.node child).membership = some ⟨home.tree, slot⟩ ∧
      (child ∈ open_ ∨ (store.node child).parentSlot = some home.slot)) ∨
    (home.tree = tree ∧ child ∈ due)
  root {other : TreeId} : other < store.trees.size →
    (∃ slot, (store.node (store.tree other).root).membership = some ⟨other, slot⟩) ∨
    (other = tree ∧ (store.tree other).root ∈ due)
  root_alone {other : TreeId} : other < store.trees.size →
    (store.node (store.tree other).root).hasParent = false ∧
      (store.node (store.tree other).root).parentSlot = none
  hasParent_of_attached {id : NodeId} {home : Membership} :
    (store.node id).membership = some home → id ≠ (store.tree home.tree).root →
    (store.node id).hasParent = true
  parentSlot_of_detached {id : NodeId} : (store.node id).membership = none →
    (store.node id).parentSlot = none

theorem Due.of_eq {tree : TreeId} {due : List NodeId} {before after : Store}
    (h : Due tree due before)
    (hmembership : ∀ id, (after.node id).membership = (before.node id).membership)
    (hchildren : ∀ id, (after.node id).children = (before.node id).children)
    (hhasParent : ∀ id, (after.node id).hasParent = (before.node id).hasParent)
    (hroot : (after.tree tree).root = (before.tree tree).root) : Due tree due after where
  nodup := h.nodup
  detached hid := by
    rw [hmembership]
    exact h.detached hid
  owner_attached hid howns := by
    rw [Owns, hchildren] at howns
    rw [hmembership]
    exact h.owner_attached hid howns
  root_or_hasParent hid := by
    rw [hhasParent, hroot]
    exact h.root_or_hasParent hid

def Strict (store : Store) : Prop :=
  ∀ tree, StrictWithin tree [] [] store

variable {store : Store} {tree : TreeId} {id parent child : NodeId} {due open_ : List NodeId}

@[simp] theorem owns_enrol (store : Store) (tree : TreeId) (id parent child : NodeId) :
    (store.enrol tree id).Owns parent child ↔ store.Owns parent child := by
  rw [Owns, children_enrol, Owns]

@[simp] theorem owns_setParentSlot (store : Store) (id parent child : NodeId) (slot : Nat) :
    (store.setParentSlot id slot).Owns parent child ↔ store.Owns parent child := by
  rw [Owns, children_setParentSlot, Owns]

theorem owns_link (store : Store) {parent : NodeId} (child first second : NodeId)
    (hparent : parent < store.nodes.size) :
    (store.link parent child).Owns first second ↔
      store.Owns first second ∨ first = parent ∧ second = child := by
  rw [Owns, children_link store child first hparent, Owns]
  split
  · rename_i hfirst
    simp [hfirst]
  · rename_i hfirst
    simp [hfirst]

namespace Linked

theorem not_owns (h : Linked store) (halone : (store.node child).hasParent = false) :
    ¬ store.Owns parent child := by
  intro howns
  have hmarked := (h.hasParent_iff child).mpr ⟨parent, howns⟩
  rw [halone] at hmarked
  cases hmarked

theorem of_eq {after : Store} (h : Linked store)
    (hchildren : ∀ id, (after.node id).children = (store.node id).children)
    (hhasParent : ∀ id, (after.node id).hasParent = (store.node id).hasParent) : Linked after where
  unique hfirst hsecond := by
    rw [Owns, hchildren] at hfirst hsecond
    exact h.unique hfirst hsecond
  nodup id := by
    rw [hchildren]
    exact h.nodup id
  hasParent_iff id := by
    simp only [Owns, hchildren, hhasParent]
    exact h.hasParent_iff id

theorem link (h : Linked store) (hparent : parent < store.nodes.size)
    (hchild : child < store.nodes.size) (halone : (store.node child).hasParent = false) :
    Linked (store.link parent child) := by
  have hunowned : ∀ owner, ¬ store.Owns owner child := fun _ => h.not_owns halone
  constructor
  · intro first second candidate hfirst hsecond
    rw [owns_link store child _ _ hparent] at hfirst hsecond
    rcases hfirst with hfirst | ⟨rfl, rfl⟩
    · rcases hsecond with hsecond | ⟨rfl, rfl⟩
      · exact h.unique hfirst hsecond
      · exact absurd hfirst (hunowned first)
    · rcases hsecond with hsecond | ⟨rfl, -⟩
      · exact absurd hsecond (hunowned second)
      · rfl
  · intro id
    rw [children_link store child id hparent]
    split
    · refine List.nodup_append.mpr ⟨h.nodup id, by simp, ?_⟩
      rintro other hother _ hnew rfl
      rw [List.mem_singleton] at hnew
      subst hnew
      exact hunowned id hother
    · exact h.nodup id
  · intro id
    rw [hasParent_link store id hchild, Bool.or_eq_true, decide_eq_true_eq, h.hasParent_iff]
    simp only [owns_link store child _ _ hparent]
    constructor
    · rintro (rfl | ⟨owner, howner⟩)
      · exact ⟨parent, Or.inr ⟨rfl, rfl⟩⟩
      · exact ⟨owner, Or.inl howner⟩
    · rintro ⟨owner, howner | ⟨-, rfl⟩⟩
      · exact Or.inr ⟨owner, howner⟩
      · exact Or.inl rfl

end Linked

end RiskScan.Store

import RiskScan.Proofs.Store.Registration
/-!
# Strict trees

Unless a node is registered on its own, trees stay strict: planting and adding a child check that
the node in question has no parent and belongs to no tree, and nothing else changes the shape of a
store. Among detached nodes cycles can be built. They stay detached, because each node on a cycle
has a parent, and so it is neither planted nor added to another node.
-/

namespace RiskScan.Store

variable {store : Store} {tree : TreeId} {id parent child : NodeId}

theorem Due.nil (tree : TreeId) (store : Store) : Due tree [] store where
  nodup := List.nodup_nil
  detached h := absurd h List.not_mem_nil
  owner_attached h := absurd h List.not_mem_nil
  root_or_hasParent h := absurd h List.not_mem_nil

theorem StrictWithin.strict (h : StrictWithin tree [] [] store) : Strict store := by
  intro other
  refine { h with isDue := .nil other store, child_of_attached := ?_, root := ?_ }
  · intro parent child home howns hparent
    refine (h.child_of_attached howns hparent).imp_right ?_
    rintro ⟨-, hdue⟩
    exact absurd hdue List.not_mem_nil
  · intro third hthird
    refine (h.root hthird).imp_right ?_
    rintro ⟨-, hdue⟩
    exact absurd hdue List.not_mem_nil

namespace Strict

theorem sound (h : Strict store) : ArenaSound store :=
  (h 0).sound

theorem linked (h : Strict store) : Linked store :=
  (h 0).linked

/-- A child of a registered node is registered later in the same tree, and knows its parent. -/
theorem child_of_attached (h : Strict store) {home : Membership} (howns : store.Owns parent child)
    (hparent : (store.node parent).membership = some home) :
    ∃ slot, home.slot < slot ∧ (store.node child).membership = some ⟨home.tree, slot⟩ ∧
      (store.node child).parentSlot = some home.slot := by
  rcases (h 0).child_of_attached howns hparent with ⟨slot, hlt, hslot, hopen | htold⟩ | ⟨-, hdue⟩
  · exact absurd hopen List.not_mem_nil
  · exact ⟨slot, hlt, hslot, htold⟩
  · exact absurd hdue List.not_mem_nil

theorem root (h : Strict store) (htree : tree < store.trees.size) :
    ∃ slot, (store.node (store.tree tree).root).membership = some ⟨tree, slot⟩ := by
  rcases (h 0).root htree with hroot | ⟨-, hdue⟩
  · exact hroot
  · exact absurd hdue List.not_mem_nil

theorem not_owns_root (h : Strict store) (htree : tree < store.trees.size) :
    ¬ store.Owns parent (store.tree tree).root :=
  h.linked.not_owns ((h 0).root_alone htree).1

theorem empty : Strict Store.empty := by
  suffices hwithin : StrictWithin 0 [] [] Store.empty from hwithin.strict
  refine ⟨.empty, ⟨?_, fun _ => List.nodup_nil, ?_⟩, .nil _ _, ?_, ?_, ?_, ?_, ?_, ?_, ?_⟩
  · exact fun hfirst _ => absurd hfirst List.not_mem_nil
  · intro id
    constructor
    · intro h
      cases h
    · rintro ⟨owner, howner⟩
      exact absurd howner List.not_mem_nil
  · exact fun h => absurd h List.not_mem_nil
  · exact fun howns _ => absurd howns List.not_mem_nil
  · exact fun howns _ => absurd howns List.not_mem_nil
  · exact fun h => absurd h (Nat.not_lt_zero _)
  · exact fun h => absurd h (Nat.not_lt_zero _)
  · exact fun h => absurd (lt_size_of_membership h) (Nat.not_lt_zero _)
  · exact fun _ => rfl

theorem of_eq {after : Store} (h : Strict store) (hsound : ArenaSound after)
    (htreeCount : after.trees.size = store.trees.size)
    (hroots : ∀ tree, (after.tree tree).root = (store.tree tree).root)
    (hchildren : ∀ id, (after.node id).children = (store.node id).children)
    (hhasParent : ∀ id, (after.node id).hasParent = (store.node id).hasParent)
    (hmembership : ∀ id, (after.node id).membership = (store.node id).membership)
    (hparentSlot : ∀ id, (after.node id).parentSlot = (store.node id).parentSlot) :
    Strict after := by
  have hlinked : Linked after := h.linked.of_eq hchildren hhasParent
  suffices hwithin : StrictWithin 0 [] [] after from hwithin.strict
  refine ⟨hsound, hlinked, .nil 0 after, ?_, ?_, ?_, ?_, ?_, ?_, ?_⟩
  · exact fun hopen => absurd hopen List.not_mem_nil
  · intro owner candidate howns howner
    rw [Owns, hchildren] at howns
    rw [hmembership] at howner ⊢
    exact (h 0).child_of_detached howns howner
  · intro owner candidate home howns howner
    rw [Owns, hchildren] at howns
    rw [hmembership] at howner ⊢
    rw [hparentSlot]
    exact (h 0).child_of_attached howns howner
  · intro other hother
    rw [htreeCount] at hother
    rw [hroots, hmembership]
    exact (h 0).root hother
  · intro other hother
    rw [htreeCount] at hother
    rw [hroots, hhasParent, hparentSlot]
    exact (h 0).root_alone hother
  · intro other home hother hroot
    rw [hmembership] at hother
    rw [hroots] at hroot
    rw [hhasParent]
    exact (h 0).hasParent_of_attached hother hroot
  · intro other hother
    rw [hmembership] at hother
    rw [hparentSlot]
    exact (h 0).parentSlot_of_detached hother

theorem of_sameShape {after : Store} (h : Strict store) (hsame : SameShape store after)
    (hsound : ArenaSound after) : Strict after :=
  h.of_eq hsound hsame.treeCount hsame.root hsame.children hsame.hasParent hsame.membership
    hsame.parentSlot

theorem create (h : Strict store) {node : Node} (hfresh : node.Fresh) :
    Strict (store.create node).2 :=
  h.of_eq (h.sound.create hfresh) rfl (fun _ => rfl) (create_keeps Node.children hfresh.children)
    (create_keeps Node.hasParent hfresh.hasParent) (create_keeps Node.membership hfresh.membership)
    (create_keeps Node.parentSlot hfresh.parentSlot)

theorem begin (h : Strict store) {root : NodeId} (halone : (store.node root).hasParent = false)
    (hdetached : (store.node root).membership = none) :
    StrictWithin store.trees.size [root] [] (store.begin root) := by
  have hold : ∀ {tree : TreeId}, tree < store.trees.size →
      (store.begin root).tree tree = store.tree tree := by
    intro tree htree
    rw [tree_begin, if_neg (Nat.ne_of_lt htree)]
  have hnew : ((store.begin root).tree store.trees.size).root = root := by
    rw [tree_begin, if_pos rfl]
  have hsplit : ∀ {tree : TreeId}, tree < (store.begin root).trees.size →
      tree < store.trees.size ∨ tree = store.trees.size := by
    intro tree htree
    rw [treeCount_begin] at htree
    exact Nat.lt_or_eq_of_le (Nat.le_of_lt_succ htree)
  have hlinked : Linked (store.begin root) := h.linked.of_eq (fun _ => rfl) (fun _ => rfl)
  refine ⟨h.sound.begin root, hlinked, ?_, ?_, fun {_ _} => (h 0).child_of_detached, ?_, ?_, ?_, ?_,
    fun {_} => (h 0).parentSlot_of_detached⟩
  · refine ⟨by simp, ?_, ?_, ?_⟩
    · intro id hid
      rwa [List.mem_singleton.mp hid]
    · intro id parent hid howns
      rw [List.mem_singleton.mp hid] at howns
      exact absurd howns (h.linked.not_owns halone)
    · intro id hid
      rw [hnew]
      exact Or.inl (List.mem_singleton.mp hid)
  · exact fun hopen => absurd hopen List.not_mem_nil
  · intro owner candidate home howns howner
    obtain ⟨slot, hlt, hslot, htold⟩ := h.child_of_attached howns howner
    exact Or.inl ⟨slot, hlt, hslot, Or.inr htold⟩
  · intro tree htree
    rcases hsplit htree with htree | rfl
    · rw [hold htree]
      exact Or.inl (h.root htree)
    · rw [hnew]
      exact Or.inr ⟨rfl, List.mem_singleton_self root⟩
  · intro tree htree
    rcases hsplit htree with htree | rfl
    · rw [hold htree]
      exact (h 0).root_alone htree
    · rw [hnew]
      exact ⟨halone, (h 0).parentSlot_of_detached hdetached⟩
  · intro id home hid hroot
    rw [hold (h.sound.tree_lt hid)] at hroot
    exact (h 0).hasParent_of_attached hid hroot

/-- Planting a node without a parent, which belongs to no tree, registers everything below it. -/
theorem plant_of_free (h : Strict store) {root : NodeId} (hroot : root < store.nodes.size)
    (halone : (store.node root).hasParent = false)
    (hdetached : (store.node root).membership = none) :
    ∃ after, Store.plant root store = .ok store.trees.size after ∧ Strict after ∧
      Registers (store.begin root) after := by
  obtain ⟨after, hafter, hstrict, hregisters⟩ := (h.begin halone hdetached).register (by simp) hroot
  refine ⟨after, ?_, (hstrict.close ?_).strict, hregisters⟩
  · unfold Store.plant
    unfold Store.begin at hafter
    simp [halone, hdetached, hafter]
  · have hlt : store.trees.size < after.trees.size := by
      rw [hregisters.treeCount]
      simp
    have hrootAlone := (hstrict.root_alone hlt).1
    rwa [hregisters.extend.root (by simp), tree_begin, if_pos rfl] at hrootAlone

theorem plant (h : Strict store) {root : NodeId} (hroot : root < store.nodes.size) :
    Strict ((Store.plant root).after store) := by
  by_cases hfree : (store.node root).hasParent = false ∧ (store.node root).membership = none
  · obtain ⟨after, hafter, hstrict, -⟩ := h.plant_of_free hroot hfree.1 hfree.2
    rwa [StoreM.after, hafter]
  · rw [after_plant, if_pos]
    · exact h
    · rwa [not_and_or, Bool.not_eq_false, ← ne_eq, Option.ne_none_iff_isSome] at hfree

/-- What may become a child is detached in a strict tree: a registered node has a parent or is a
root. -/
theorem detached_of_childError? (h : Strict store)
    (hchild : store.childError? parent child = none) :
    child ≠ parent ∧ (store.node child).hasParent = false ∧
    (store.node child).membership = none := by
  obtain ⟨hne, halone, hroot⟩ := free_of_childError? hchild
  refine ⟨hne, halone, ?_⟩
  cases hmembership : (store.node child).membership with
  | none => rfl
  | some home =>
    have hother : (store.tree home.tree).root ≠ child :=
      hroot home.tree (tree?_of_membership hmembership)
    have hmarked := (h 0).hasParent_of_attached hmembership (Ne.symm hother)
    rw [halone] at hmarked
    cases hmarked

/-- A child is due when it has been linked to a registered node, and detached like its parent
otherwise. -/
theorem link (h : Strict store) (hparent : parent < store.nodes.size)
    (hchild : child < store.nodes.size) (hne : child ≠ parent)
    (halone : (store.node child).hasParent = false)
    (hdetached : (store.node child).membership = none) {due : List NodeId}
    (hdue : (∃ home, (store.node parent).membership = some home ∧ home.tree = tree ∧
      due = [child]) ∨
      (store.node parent).membership = none ∧ due = []) :
    StrictWithin tree due [] (store.link parent child) := by
  have hmembership : ∀ id, ((store.link parent child).node id).membership =
      (store.node id).membership :=
    membership_link store parent child
  have hparentSlot : ∀ id, ((store.link parent child).node id).parentSlot =
      (store.node id).parentSlot :=
    link_keeps Node.parentSlot (fun _ _ => rfl) (fun _ _ => rfl) store parent child
  have hhasParent : ∀ id, (store.node id).hasParent = true →
      ((store.link parent child).node id).hasParent = true := by
    intro id hid
    rw [hasParent_link store id hchild, hid, Bool.or_true]
  refine ⟨h.sound.link hparent hchild, h.linked.link hparent hchild halone, ?_, ?_, ?_, ?_,
    ?_, ?_, ?_, ?_⟩
  · rcases hdue with ⟨home, hhome, rfl, rfl⟩ | ⟨-, rfl⟩
    · refine ⟨by simp, ?_, ?_, ?_⟩
      · intro id hid
        rw [List.mem_singleton.mp hid, hmembership]
        exact hdetached
      · intro id owner hid howns
        rw [List.mem_singleton.mp hid, owns_link store child _ _ hparent] at howns
        rcases howns with howns | ⟨rfl, -⟩
        · exact absurd howns (h.linked.not_owns halone)
        · rw [hmembership]
          exact ⟨home, hhome⟩
      · intro id hid
        rw [List.mem_singleton.mp hid, hasParent_link store child hchild]
        simp
    · exact .nil tree _
  · exact fun hopen => absurd hopen List.not_mem_nil
  · intro owner candidate howns howner
    rw [owns_link store child _ _ hparent] at howns
    rw [hmembership] at howner ⊢
    rcases howns with howns | ⟨-, rfl⟩
    · exact (h 0).child_of_detached howns howner
    · exact hdetached
  · intro owner candidate home howns howner
    rw [owns_link store child _ _ hparent] at howns
    rw [hmembership] at howner
    rw [hmembership, hparentSlot]
    rcases howns with howns | ⟨rfl, rfl⟩
    · obtain ⟨slot, hlt, hslot, htold⟩ := h.child_of_attached howns howner
      exact Or.inl ⟨slot, hlt, hslot, Or.inr htold⟩
    · rcases hdue with ⟨place, hplace, rfl, rfl⟩ | ⟨hnone, -⟩
      · rw [hplace] at howner
        cases howner
        exact Or.inr ⟨rfl, List.mem_singleton_self _⟩
      · rw [hnone] at howner
        cases howner
  · intro other hother
    rw [tree_link, hmembership]
    exact Or.inl (h.root hother)
  · intro other hother
    obtain ⟨hrootAlone, hrootSlot⟩ := (h 0).root_alone hother
    rw [tree_link, hparentSlot, hasParent_link store _ hchild, hrootAlone, Bool.or_false,
      decide_eq_false_iff_not]
    refine ⟨?_, hrootSlot⟩
    intro hsame
    obtain ⟨slot, hslot⟩ := h.root hother
    rw [hsame, hdetached] at hslot
    cases hslot
  · intro id home hid hroot
    rw [hmembership] at hid
    exact hhasParent id ((h 0).hasParent_of_attached hid hroot)
  · intro id hid
    rw [hmembership] at hid
    rw [hparentSlot]
    exact (h 0).parentSlot_of_detached hid

/-- A child that is not refused is linked to its parent, and nothing else is; where the parent is
registered, everything below the child is too. -/
theorem addChild_of_childError? (h : Strict store) (hparent : parent < store.nodes.size)
    (hchild : child < store.nodes.size) (hallowed : store.childError? parent child = none) :
    ∃ after, Store.addChild parent child store = .ok () after ∧ Strict after ∧
      Registers (store.link parent child) after := by
  obtain ⟨hne, halone, hdetached⟩ := h.detached_of_childError? hallowed
  unfold Store.addChild
  rw [hallowed]
  cases hmembership : (store.node parent).membership with
  | none =>
    have hlinked : StrictWithin 0 [] [] (store.link parent child) :=
      h.link hparent hchild hne halone hdetached (Or.inr ⟨hmembership, rfl⟩)
    exact ⟨store.link parent child, rfl, hlinked.strict, .refl _⟩
  | some home =>
    have hlinked : StrictWithin home.tree [child] [] (store.link parent child) :=
      h.link hparent hchild hne halone hdetached (Or.inl ⟨home, hmembership, rfl, rfl⟩)
    obtain ⟨after, hafter, hstrict, hregisters⟩ :=
      hlinked.register (h.sound.tree_lt hmembership) (by simpa using hchild)
    have howns : (store.link parent child).Owns parent child :=
      (owns_link store child _ _ hparent).mpr (Or.inr ⟨rfl, rfl⟩)
    have hplace :=
      (Extends.link store parent child).trans hregisters.extend |>.membership hmembership
    refine ⟨after.setParentSlot child home.slot, ?_,
      (hstrict.setParentSlot (hregisters.owns_iff.mpr howns) hplace).strict,
      hregisters.trans (.setParentSlot after child home.slot)⟩
    unfold Store.link at hafter
    dsimp only
    rw [hafter]

theorem addChild (h : Strict store) (hparent : parent < store.nodes.size)
    (hchild : child < store.nodes.size) : Strict ((Store.addChild parent child).after store) := by
  cases herror : store.childError? parent child with
  | some error =>
    rw [after_addChild, herror]
    exact h
  | none =>
    obtain ⟨after, hafter, hstrict, -⟩ := h.addChild_of_childError? hparent hchild herror
    rwa [StoreM.after, hafter]

/-- Every operation but the registration of a node on its own keeps trees strict, whether or not it
fails. -/
theorem step (h : Strict store) {operation : Operation}
    (hallowed : operation.registersAlone = false) (hknown : store.knows operation) :
    Strict (operation.after store) := by
  have hsound := (h.sound.step hknown).1
  cases hshape : operation.changesShape with
  | false => exact h.of_sameShape (Operation.sameShape_after hshape store).1 hsound
  | true =>
    cases operation with
    | create draft =>
      rcases Operation.after_create draft store with hfail | ⟨node, hnode, hafter⟩
      · rwa [hfail]
      · rw [hafter]
        exact h.create (draft.fresh_of_node hnode)
    | plant root =>
      rw [Operation.after_plant]
      exact h.plant (by simpa [knows] using hknown)
    | addChild parent child =>
      rw [Operation.after_addChild]
      simp only [knows, Bool.and_eq_true, decide_eq_true_eq] at hknown
      exact h.addChild hknown.1 hknown.2
    | register tree id => cases hallowed
    | _ => cases hshape

end Strict

theorem Reaches.strict (hreachable : OrdinarilyReachable store) : Strict store := by
  induction hreachable with
  | refl => exact .empty
  | step _ hallowed hknown ih => exact ih.step (by simpa using hallowed) hknown

end RiskScan.Store

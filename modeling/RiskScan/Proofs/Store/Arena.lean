import RiskScan.Proofs.Store.Frame
/-!
# Arenas

The slots of a tree and the memberships of nodes say the same thing twice: a node that belongs to a
tree stands in the slot that its membership names, and in no other slot of any tree. Dependencies
are slots that are in use. All operations keep this, also where they fail half-way, because
registering one node enters it on both sides at once. Nothing that has been entered is ever taken
back.
-/

namespace RiskScan

/-- A node with no relation to any other. -/
structure Node.Fresh (node : Node) : Prop where
  children : node.children = []
  hasParent : node.hasParent = false
  membership : node.membership = none
  parentSlot : node.parentSlot = none
  dependencies : node.dependencies = []
  memo : node.memo = none

theorem Draft.fresh_of_node {draft : Draft} {node : Node} (h : draft.node = .ok node) :
    node.Fresh := by
  unfold Draft.node at h
  cases hseverity : Severity.parse draft.severity with
  | error error =>
    rw [hseverity] at h
    cases h
  | ok severity =>
    cases hconfidence : Confidence.ofValue draft.confidence with
    | error error =>
      rw [hseverity, hconfidence] at h
      cases h
    | ok confidence =>
      rw [hseverity, hconfidence] at h
      cases h
      exact ⟨rfl, rfl, rfl, rfl, rfl, rfl⟩

namespace Store

/-- Arenas and memberships agree, and what nodes refer to exists. -/
structure ArenaSound (store : Store) : Prop where
  membership_of_mem {tree : TreeId} {slot : Nat} {id : NodeId} :
    (store.tree tree).nodes[slot]? = some id → (store.node id).membership = some ⟨tree, slot⟩
  mem_of_membership {id : NodeId} {home : Membership} :
    (store.node id).membership = some home →
      (store.tree home.tree).nodes[home.slot]? = some id
  dependencies_of_detached {id : NodeId} :
    (store.node id).membership = none → (store.node id).dependencies = []
  dependency_lt {id : NodeId} {home : Membership} {slot : Nat} :
    (store.node id).membership = some home → slot ∈ (store.node id).dependencies →
      slot < (store.tree home.tree).nodes.size
  child_lt {id child : NodeId} : child ∈ (store.node id).children → child < store.nodes.size

/-- What has been made and registered before is still there afterwards, in the same place. -/
structure Extends (before after : Store) : Prop where
  size_le : before.nodes.size ≤ after.nodes.size
  treeCount_le : before.trees.size ≤ after.trees.size
  membership {id : NodeId} {home : Membership} :
    (before.node id).membership = some home → (after.node id).membership = some home
  isPrefix {tree : TreeId} : tree < before.trees.size →
    (before.tree tree).nodes.toList <+: (after.tree tree).nodes.toList
  root {tree : TreeId} : tree < before.trees.size →
    (after.tree tree).root = (before.tree tree).root

namespace Extends

theorem refl (store : Store) : Extends store store :=
  ⟨Nat.le_refl _, Nat.le_refl _, id, fun _ => List.prefix_refl _, fun _ => rfl⟩

theorem trans {first second third : Store} (hleft : Extends first second)
    (hright : Extends second third) : Extends first third where
  size_le := Nat.le_trans hleft.size_le hright.size_le
  treeCount_le := Nat.le_trans hleft.treeCount_le hright.treeCount_le
  membership h := hright.membership (hleft.membership h)
  isPrefix htree := (hleft.isPrefix htree).trans
    (hright.isPrefix (Nat.lt_of_lt_of_le htree hleft.treeCount_le))
  root htree := (hright.root (Nat.lt_of_lt_of_le htree hleft.treeCount_le)).trans (hleft.root htree)

theorem of_sameShape {before after : Store} (hshape : SameShape before after) :
    Extends before after where
  size_le := Nat.le_of_eq hshape.size.symm
  treeCount_le := Nat.le_of_eq hshape.treeCount.symm
  membership h := (hshape.membership _).trans h
  isPrefix _ := ⟨[], by rw [hshape.nodes, List.append_nil]⟩
  root _ := hshape.root _

theorem enrol (store : Store) (tree : TreeId) {id : NodeId}
    (hdetached : (store.node id).membership = none) : Extends store (store.enrol tree id) where
  size_le := Nat.le_of_eq (size_enrol store tree id).symm
  treeCount_le := Nat.le_of_eq (treeCount_enrol store tree id).symm
  membership {other home} h := by
    rw [node_enrol, if_neg]
    · exact h
    · exact fun hsame => ne_of_detached hdetached h hsame.1.symm
  isPrefix {other} _ := by
    rw [tree_enrol]
    split
    · rename_i hsame
      rw [hsame.1, Array.toList_push]
      exact List.prefix_append _ _
    · exact List.prefix_refl _
  root {other} _ := by
    rw [tree_enrol]
    split
    · rename_i hsame
      rw [hsame.1]
    · rfl

theorem setParentSlot (store : Store) (id : NodeId) (slot : Nat) :
    Extends store (store.setParentSlot id slot) where
  size_le := Nat.le_of_eq (size_setParentSlot store id slot).symm
  treeCount_le := Nat.le_refl _
  membership h := (membership_setParentSlot store id _ slot).trans h
  isPrefix _ := List.prefix_refl _
  root _ := rfl

theorem link (store : Store) (parent child : NodeId) : Extends store (store.link parent child) where
  size_le := Nat.le_of_eq (size_link store parent child).symm
  treeCount_le := Nat.le_refl _
  membership h := (membership_link store parent child _).trans h
  isPrefix _ := List.prefix_refl _
  root _ := rfl

theorem create (store : Store) (node : Node) : Extends store (store.create node).2 where
  size_le := by simp [Store.create]
  treeCount_le := Nat.le_refl _
  membership h := by
    rw [node_create, if_neg (Nat.ne_of_lt (lt_size_of_membership h))]
    exact h
  isPrefix _ := List.prefix_refl _
  root _ := rfl

theorem begin (store : Store) (root : NodeId) : Extends store (store.begin root) where
  size_le := Nat.le_refl _
  treeCount_le := by simp
  membership := id
  isPrefix htree := ⟨[], by rw [tree_begin, if_neg (Nat.ne_of_lt htree), List.append_nil]⟩
  root htree := by rw [tree_begin, if_neg (Nat.ne_of_lt htree)]

end Extends

namespace ArenaSound

variable {store : Store}

theorem empty : ArenaSound Store.empty where
  membership_of_mem h := absurd (lt_treeCount_of_mem h) (Nat.not_lt_zero _)
  mem_of_membership h := absurd (lt_size_of_membership h) (Nat.not_lt_zero _)
  dependencies_of_detached _ := rfl
  dependency_lt _ hslot := absurd hslot List.not_mem_nil
  child_lt h := absurd h List.not_mem_nil

theorem tree_lt (hsound : ArenaSound store) {id : NodeId} {home : Membership}
    (h : (store.node id).membership = some home) : home.tree < store.trees.size :=
  lt_treeCount_of_mem (hsound.mem_of_membership h)

theorem slot_lt (hsound : ArenaSound store) {id : NodeId} {home : Membership}
    (h : (store.node id).membership = some home) : home.slot < (store.tree home.tree).nodes.size :=
  (Array.getElem?_eq_some_iff.mp (hsound.mem_of_membership h)).1

theorem nodup (hsound : ArenaSound store) (tree : TreeId) :
    (store.tree tree).nodes.toList.Nodup := by
  rw [List.Nodup, List.pairwise_iff_getElem]
  intro first second hfirst hsecond hlt heq
  have hplace : ∀ {slot : Nat} (hslot : slot < (store.tree tree).nodes.toList.length),
      (store.node (store.tree tree).nodes.toList[slot]).membership = some ⟨tree, slot⟩ := by
    intro slot hslot
    refine hsound.membership_of_mem ?_
    rw [← Array.getElem?_toList, List.getElem?_eq_getElem hslot]
  have hsame := hplace hfirst
  rw [heq, hplace hsecond] at hsame
  cases hsame
  exact Nat.lt_irrefl _ hlt

theorem mem_of_membership_eq (hsound : ArenaSound store) {id : NodeId} {home : Membership}
    (h : (store.node id).membership = some home) : id ∈ (store.tree home.tree).nodes.toList := by
  have hmem := hsound.mem_of_membership h
  rw [← Array.getElem?_toList] at hmem
  exact List.mem_of_getElem? hmem

theorem membership_of_mem_toList (hsound : ArenaSound store) {id : NodeId} {tree : TreeId}
    (h : id ∈ (store.tree tree).nodes.toList) :
    ∃ slot, (store.node id).membership = some ⟨tree, slot⟩ := by
  obtain ⟨slot, hslot⟩ := List.mem_iff_getElem?.mp h
  rw [Array.getElem?_toList] at hslot
  exact ⟨slot, hsound.membership_of_mem hslot⟩

theorem of_eq {after : Store} (hsound : ArenaSound store)
    (hsize : store.nodes.size ≤ after.nodes.size)
    (hmembership : ∀ id, (after.node id).membership = (store.node id).membership)
    (hdependencies : ∀ id, (after.node id).dependencies = (store.node id).dependencies)
    (hchildren : ∀ id, (after.node id).children = (store.node id).children)
    (hnodes : ∀ tree, (after.tree tree).nodes = (store.tree tree).nodes) : ArenaSound after where
  membership_of_mem h := by
    rw [hnodes] at h
    rw [hmembership]
    exact hsound.membership_of_mem h
  mem_of_membership h := by
    rw [hmembership] at h
    rw [hnodes]
    exact hsound.mem_of_membership h
  dependencies_of_detached h := by
    rw [hmembership] at h
    rw [hdependencies]
    exact hsound.dependencies_of_detached h
  dependency_lt h hslot := by
    rw [hmembership] at h
    rw [hdependencies] at hslot
    rw [hnodes]
    exact hsound.dependency_lt h hslot
  child_lt h := by
    rw [hchildren] at h
    exact Nat.lt_of_lt_of_le (hsound.child_lt h) hsize

theorem setParentSlot (hsound : ArenaSound store) (id : NodeId) (slot : Nat) :
    ArenaSound (store.setParentSlot id slot) :=
  hsound.of_eq (Nat.le_of_eq (size_setParentSlot store id slot).symm)
    (membership_setParentSlot store id · slot)
    (setParentSlot_keeps Node.dependencies (fun _ _ => rfl) store id · slot)
    (children_setParentSlot store id · slot) (fun _ => rfl)

theorem create (hsound : ArenaSound store) {node : Node} (hfresh : node.Fresh) :
    ArenaSound (store.create node).2 :=
  hsound.of_eq (by simp [Store.create]) (create_keeps Node.membership hfresh.membership)
    (create_keeps Node.dependencies hfresh.dependencies)
      (create_keeps Node.children hfresh.children)
    (fun _ => rfl)

theorem begin (hsound : ArenaSound store) (root : NodeId) : ArenaSound (store.begin root) where
  membership_of_mem {tree slot id} h := by
    rw [tree_begin] at h
    split at h
    · cases h
    · exact hsound.membership_of_mem h
  mem_of_membership {id home} h := by
    rw [tree_begin, if_neg (Nat.ne_of_lt (hsound.tree_lt h))]
    exact hsound.mem_of_membership h
  dependencies_of_detached h := hsound.dependencies_of_detached h
  dependency_lt {id home slot} h hslot := by
    rw [tree_begin, if_neg (Nat.ne_of_lt (hsound.tree_lt h))]
    exact hsound.dependency_lt h hslot
  child_lt h := hsound.child_lt h

theorem link (hsound : ArenaSound store) {parent child : NodeId}
    (hparent : parent < store.nodes.size) (hchild : child < store.nodes.size) :
    ArenaSound (store.link parent child) where
  membership_of_mem h := by
    rw [membership_link]
    exact hsound.membership_of_mem h
  mem_of_membership h := by
    rw [membership_link] at h
    exact hsound.mem_of_membership h
  dependencies_of_detached h := by
    rw [membership_link] at h
    rw [link_keeps Node.dependencies (fun _ _ => rfl) (fun _ _ => rfl)]
    exact hsound.dependencies_of_detached h
  dependency_lt h hslot := by
    rw [membership_link] at h
    rw [link_keeps Node.dependencies (fun _ _ => rfl) (fun _ _ => rfl)] at hslot
    exact hsound.dependency_lt h hslot
  child_lt {id other} h := by
    rw [children_link store child id hparent] at h
    rw [size_link]
    split at h
    · rcases List.mem_append.mp h with hold | hnew
      · exact hsound.child_lt hold
      · rwa [List.mem_singleton.mp hnew]
    · exact hsound.child_lt h

theorem enrol (hsound : ArenaSound store) {tree : TreeId} {id : NodeId}
    (htree : tree < store.trees.size) (hid : id < store.nodes.size)
    (hdetached : (store.node id).membership = none) : ArenaSound (store.enrol tree id) where
  membership_of_mem {other slot candidate} h := by
    rw [tree_enrol] at h
    rw [node_enrol]
    by_cases hother : tree = other
    · subst hother
      rw [if_pos ⟨rfl, htree⟩, Array.getElem?_push] at h
      split at h
      · rename_i hslot
        rw [if_pos ⟨Option.some.inj h, hid⟩, hslot]
      · have hmembership := hsound.membership_of_mem h
        rw [if_neg fun hsame => ne_of_detached hdetached hmembership hsame.1.symm]
        exact hmembership
    · rw [if_neg fun hsame => hother hsame.1] at h
      have hmembership := hsound.membership_of_mem h
      rw [if_neg fun hsame => ne_of_detached hdetached hmembership hsame.1.symm]
      exact hmembership
  mem_of_membership {other home} h := by
    rw [node_enrol] at h
    rw [tree_enrol]
    split at h
    · rename_i hsame
      cases h
      rw [if_pos ⟨rfl, htree⟩, hsame.1]
      exact Array.getElem?_push_size
    · have hmem := hsound.mem_of_membership h
      split
      · rename_i hsame
        rw [hsame.1, Array.getElem?_push, if_neg (Nat.ne_of_lt (hsound.slot_lt h))]
        exact hmem
      · exact hmem
  dependencies_of_detached {other} h := by
    rw [enrol_keeps Node.dependencies (fun _ _ => rfl)]
    rw [node_enrol] at h
    split at h
    · cases h
    · exact hsound.dependencies_of_detached h
  dependency_lt {other home slot} h hslot := by
    rw [enrol_keeps Node.dependencies (fun _ _ => rfl)] at hslot
    rw [node_enrol] at h
    split at h
    · rename_i hsame
      rw [← hsame.1, hsound.dependencies_of_detached hdetached] at hslot
      cases hslot
    · have hlt := hsound.dependency_lt h hslot
      rw [tree_enrol]
      split
      · rename_i hsame
        rw [hsame.1, Array.size_push]
        exact Nat.lt_succ_of_lt hlt
      · exact hlt
  child_lt {other child} h := by
    rw [children_enrol] at h
    rw [size_enrol]
    exact hsound.child_lt h

theorem depend (hsound : ArenaSound store) {id target : NodeId} {home other : Membership}
    (hid : (store.node id).membership = some home)
    (htarget : (store.node target).membership = some other) (htree : home.tree = other.tree) :
    ArenaSound (store.depend id other.slot home.tree) where
  membership_of_mem h := by
    rw [depend_keepsTree Tree.nodes (fun _ _ => rfl)] at h
    rw [depend_keeps Node.membership (fun _ _ => rfl)]
    exact hsound.membership_of_mem h
  mem_of_membership h := by
    rw [depend_keeps Node.membership (fun _ _ => rfl)] at h
    rw [depend_keepsTree Tree.nodes (fun _ _ => rfl)]
    exact hsound.mem_of_membership h
  dependencies_of_detached {candidate} h := by
    rw [depend_keeps Node.membership (fun _ _ => rfl)] at h
    rw [dependencies_depend store candidate _ _ (lt_size_of_membership hid),
      if_neg (ne_of_detached h hid).symm]
    exact hsound.dependencies_of_detached h
  dependency_lt {candidate place slot} h hslot := by
    rw [depend_keeps Node.membership (fun _ _ => rfl)] at h
    rw [dependencies_depend store candidate _ _ (lt_size_of_membership hid)] at hslot
    rw [depend_keepsTree Tree.nodes (fun _ _ => rfl)]
    split at hslot
    · rename_i hsame
      rw [hsame, hid] at h
      cases h
      rcases mem_insertSlot.mp hslot with rfl | hold
      · rw [htree]
        exact hsound.slot_lt htarget
      · exact hsound.dependency_lt hid hold
    · exact hsound.dependency_lt h hslot
  child_lt h := by
    rw [depend_keeps Node.children (fun _ _ => rfl)] at h
    rw [size_depend]
    exact hsound.child_lt h

theorem register (hsound : ArenaSound store) (tree : TreeId) (id : NodeId)
    (htree : tree < store.trees.size) (hid : id < store.nodes.size) :
    ArenaSound ((Store.register tree id).after store) ∧
      Extends store ((Store.register tree id).after store) := by
  have hstart : ArenaSound store ∧ tree < store.trees.size ∧ Extends store store :=
    ⟨hsound, htree, Extends.refl store⟩
  have hend := register_induction tree id
    (P := fun now => ArenaSound now ∧ tree < now.trees.size ∧ Extends store now)
    (fun hnow hchild => hnow.1.child_lt hchild) ?_ ?_ hstart hid
  · exact ⟨hend.1, hend.2.2⟩
  · rintro now candidate ⟨hnow, hcount, hextends⟩ hcandidate hdetached
    refine ⟨hnow.enrol hcount hcandidate hdetached, ?_, ?_⟩
    · rwa [treeCount_enrol]
    · exact hextends.trans (Extends.enrol now tree hdetached)
  · rintro now child slot ⟨hnow, hcount, hextends⟩
    exact ⟨hnow.setParentSlot child slot, hcount,
      hextends.trans (Extends.setParentSlot now child slot)⟩

theorem plant (hsound : ArenaSound store) {root : NodeId} (hroot : root < store.nodes.size) :
    ArenaSound ((Store.plant root).after store) ∧
    Extends store ((Store.plant root).after store) := by
  rw [after_plant]
  split
  · exact ⟨hsound, Extends.refl store⟩
  · have hregister :=
      (hsound.begin root).register store.trees.size root (by simp) (by simpa using hroot)
    exact ⟨hregister.1, (Extends.begin store root).trans hregister.2⟩

theorem addChild (hsound : ArenaSound store) {parent child : NodeId}
    (hparent : parent < store.nodes.size) (hchild : child < store.nodes.size) :
    ArenaSound ((Store.addChild parent child).after store) ∧
      Extends store ((Store.addChild parent child).after store) := by
  rw [after_addChild]
  have hlink := hsound.link hparent hchild
  have hextends := Extends.link store parent child
  split
  · exact ⟨hsound, Extends.refl store⟩
  · split
    · exact ⟨hlink, hextends⟩
    · rename_i home hhome
      have hregister := hlink.register home.tree child
        (hsound.tree_lt hhome) (by simpa using hchild)
      unfold StoreM.after at hregister
      split <;> rename_i hresult <;> rw [hresult] at hregister
      · exact ⟨hregister.1, hextends.trans hregister.2⟩
      · exact ⟨hregister.1.setParentSlot child home.slot,
          hextends.trans (hregister.2.trans (Extends.setParentSlot _ child home.slot))⟩

/-- Every operation keeps arenas sound and takes nothing back, whether or not it fails. -/
theorem step (hsound : ArenaSound store) {operation : Operation}
    (hknown : store.knows operation) :
    ArenaSound (operation.after store) ∧ Extends store (operation.after store) := by
  cases hshape : operation.changesShape with
  | false =>
    obtain ⟨hsame, hdependencies | ⟨id, target, home, other, hid, htarget, htree, hafter⟩⟩ :=
      Operation.sameShape_after hshape store
    · exact ⟨hsound.of_eq (Nat.le_of_eq hsame.size.symm) hsame.membership hdependencies
        hsame.children
        hsame.nodes, Extends.of_sameShape hsame⟩
    · rw [hafter] at hsame ⊢
      exact ⟨hsound.depend hid htarget htree, Extends.of_sameShape hsame⟩
  | true =>
    cases operation with
    | create draft =>
      rcases Operation.after_create draft store with hfail | ⟨node, hnode, hafter⟩
      · rw [hfail]
        exact ⟨hsound, Extends.refl store⟩
      · rw [hafter]
        exact ⟨hsound.create (draft.fresh_of_node hnode), Extends.create store node⟩
    | plant root =>
      rw [Operation.after_plant]
      exact hsound.plant (by simpa [knows] using hknown)
    | register tree id =>
      rw [Operation.after_register]
      simp only [knows, Bool.and_eq_true, decide_eq_true_eq] at hknown
      exact hsound.register tree id hknown.1 hknown.2
    | addChild parent child =>
      rw [Operation.after_addChild]
      simp only [knows, Bool.and_eq_true, decide_eq_true_eq] at hknown
      exact hsound.addChild hknown.1 hknown.2
    | _ => cases hshape

theorem reaches {allowed : Operation → Bool} {start : Store} (hsound : ArenaSound start)
    (hreaches : Reaches allowed start store) : ArenaSound store ∧ Extends start store := by
  induction hreaches with
  | refl => exact ⟨hsound, Extends.refl start⟩
  | step _ _ hknown ih =>
    obtain ⟨hnow, hextends⟩ := ih
    have hstep := hnow.step hknown
    exact ⟨hstep.1, hextends.trans hstep.2⟩

end ArenaSound

theorem Reaches.arenaSound {allowed : Operation → Bool} {store : Store}
    (hreaches : Reaches allowed empty store) : ArenaSound store :=
  (ArenaSound.empty.reaches hreaches).1

end Store

end RiskScan

import Mathlib.Data.Finset.Card
import RiskScan.Proofs.Store.Ownership
/-!
# Registration of strict trees

Enrolling a node that is due makes its children due, and telling a node its parent closes it. So
registering what is due in a strict tree always succeeds, and leaves only the node open at which it
began. The bound on the depth is never reached, because every level enrols a node that was detached.
-/

namespace RiskScan.Store

variable {store : Store} {tree : TreeId} {id parent child : NodeId} {due open_ : List NodeId}

namespace StrictWithin

theorem detached_of_due (h : StrictWithin tree (id :: due) open_ store) :
    (store.node id).membership = none :=
  h.isDue.detached List.mem_cons_self

/-- The owner of a node that is due is registered, so it is not the node itself. -/
theorem not_owns_self (h : StrictWithin tree (id :: due) open_ store) : ¬ store.Owns id id := by
  intro howns
  obtain ⟨home, hhome⟩ := h.isDue.owner_attached List.mem_cons_self howns
  exact ne_of_detached h.detached_of_due hhome rfl

theorem due_enrol (h : StrictWithin tree (id :: due) open_ store) (hid : id < store.nodes.size) :
    Due tree ((store.node id).children ++ due) (store.enrol tree id) := by
  have hdetached := h.detached_of_due
  obtain ⟨hfresh, hdue⟩ := List.nodup_cons.mp h.isDue.nodup
  constructor
  · refine List.nodup_append.mpr ⟨h.linked.nodup id, hdue, ?_⟩
    rintro candidate hchild _ hcandidate rfl
    obtain ⟨home, hhome⟩ := h.isDue.owner_attached (List.mem_cons_of_mem id hcandidate) hchild
    exact ne_of_detached hdetached hhome rfl
  · intro candidate hcandidate
    rw [membership_enrol store tree candidate hid]
    rcases List.mem_append.mp hcandidate with hchild | hremains
    · rw [if_neg]
      · exact h.child_of_detached hchild hdetached
      · rintro rfl
        exact h.not_owns_self hchild
    · rw [if_neg]
      · exact h.isDue.detached (List.mem_cons_of_mem id hremains)
      · rintro rfl
        exact hfresh hremains
  · intro candidate owner hcandidate howns
    rw [owns_enrol] at howns
    rw [membership_enrol store tree owner hid]
    split
    · exact ⟨_, rfl⟩
    · rename_i howner
      rcases List.mem_append.mp hcandidate with hchild | hremains
      · exact absurd (h.linked.unique howns hchild) howner
      · exact h.isDue.owner_attached (List.mem_cons_of_mem id hremains) howns
  · intro candidate hcandidate
    rw [root_enrol, hasParent_enrol]
    rcases List.mem_append.mp hcandidate with hchild | hremains
    · exact Or.inr ((h.linked.hasParent_iff candidate).mpr ⟨id, hchild⟩)
    · exact h.isDue.root_or_hasParent (List.mem_cons_of_mem id hremains)

/-- Enrolling a node that is due makes its children due. -/
theorem enrol (h : StrictWithin tree (id :: due) open_ store) (htree : tree < store.trees.size)
    (hid : id < store.nodes.size) :
    StrictWithin tree ((store.node id).children ++ due) (id :: open_) (store.enrol tree id) := by
  have hdetached := h.detached_of_due
  have hattached : ∀ {other : NodeId} {home : Membership},
      (store.node other).membership = some home →
      ((store.enrol tree id).node other).membership = some home :=
    fun hother => (Extends.enrol store tree hdetached).membership hother
  have hself : ((store.enrol tree id).node id).membership =
      some ⟨tree, (store.tree tree).nodes.size⟩ := by
    rw [membership_enrol store tree id hid, if_pos rfl]
  refine ⟨h.sound.enrol htree hid hdetached, ?_, h.due_enrol hid, ?_, ?_, ?_, ?_, ?_, ?_, ?_⟩
  · exact h.linked.of_eq (children_enrol store tree id) (hasParent_enrol store tree id)
  · intro other hother
    rcases List.mem_cons.mp hother with rfl | hother
    · exact ⟨_, hself⟩
    · obtain ⟨home, hhome⟩ := h.open_attached hother
      exact ⟨home, hattached hhome⟩
  · intro owner candidate howns howner
    rw [owns_enrol] at howns
    rw [membership_enrol store tree _ hid] at howner ⊢
    split at howner
    · cases howner
    · rw [if_neg]
      · exact h.child_of_detached howns howner
      · rintro rfl
        obtain ⟨home, hhome⟩ := h.isDue.owner_attached List.mem_cons_self howns
        exact ne_of_detached howner hhome rfl
  · intro owner candidate home howns howner
    rw [owns_enrol] at howns
    rw [membership_enrol store tree owner hid] at howner
    rw [parentSlot_enrol]
    split at howner
    · rename_i hsame
      subst hsame
      cases howner
      exact Or.inr ⟨rfl, List.mem_append_left due howns⟩
    · rcases h.child_of_attached howns howner with ⟨slot, hlt, hslot, hparent⟩ | ⟨htree, hdue⟩
      · refine Or.inl ⟨slot, hlt, hattached hslot, ?_⟩
        exact hparent.imp_left (List.mem_cons_of_mem id)
      · rcases List.mem_cons.mp hdue with rfl | hdue
        · refine Or.inl ⟨(store.tree tree).nodes.size, ?_, ?_, Or.inl List.mem_cons_self⟩
          · rw [← htree]
            exact h.sound.slot_lt howner
          · rw [hself, htree]
        · exact Or.inr ⟨htree, List.mem_append_right _ hdue⟩
  · intro other hother
    rw [treeCount_enrol] at hother
    rw [root_enrol]
    rcases h.root hother with ⟨slot, hslot⟩ | ⟨rfl, hdue⟩
    · exact Or.inl ⟨slot, hattached hslot⟩
    · rcases List.mem_cons.mp hdue with hroot | hdue
      · rw [hroot]
        exact Or.inl ⟨_, hself⟩
      · exact Or.inr ⟨rfl, List.mem_append_right _ hdue⟩
  · intro other hother
    rw [treeCount_enrol] at hother
    rw [root_enrol, hasParent_enrol, parentSlot_enrol]
    exact h.root_alone hother
  · intro other home hother hroot
    rw [membership_enrol store tree other hid] at hother
    rw [root_enrol] at hroot
    rw [hasParent_enrol]
    split at hother
    · rename_i hsame
      subst hsame
      cases hother
      exact (h.isDue.root_or_hasParent List.mem_cons_self).resolve_left hroot
    · exact h.hasParent_of_attached hother hroot
  · intro other hother
    rw [membership_enrol store tree other hid] at hother
    rw [parentSlot_enrol]
    split at hother
    · cases hother
    · exact h.parentSlot_of_detached hother

theorem setParentSlot (h : StrictWithin tree due (child :: open_) store) {home : Membership}
    (howns : store.Owns parent child) (hparent : (store.node parent).membership = some home) :
    StrictWithin tree due open_ (store.setParentSlot child home.slot) := by
  have hmembership : ∀ other, ((store.setParentSlot child home.slot).node other).membership =
      (store.node other).membership :=
    fun other => membership_setParentSlot store child other home.slot
  have hhasParent : ∀ other, ((store.setParentSlot child home.slot).node other).hasParent =
      (store.node other).hasParent :=
    fun other => hasParent_setParentSlot store child other home.slot
  have hchildren : ∀ other, ((store.setParentSlot child home.slot).node other).children =
      (store.node other).children :=
    fun other => children_setParentSlot store child other home.slot
  have hslot : ∀ other, ((store.setParentSlot child home.slot).node other).parentSlot =
      if other = child then some home.slot else (store.node other).parentSlot :=
    fun other => parentSlot_setParentSlot store other home.slot (h.sound.child_lt howns)
  refine ⟨h.sound.setParentSlot child home.slot, ?_, ?_, ?_, ?_, ?_, ?_, ?_, ?_, ?_⟩
  · exact h.linked.of_eq hchildren hhasParent
  · exact h.isDue.of_eq hmembership hchildren hhasParent rfl
  · intro other hother
    rw [hmembership]
    exact h.open_attached (List.mem_cons_of_mem child hother)
  · intro owner candidate hcandidate howner
    rw [owns_setParentSlot] at hcandidate
    rw [hmembership] at howner ⊢
    exact h.child_of_detached hcandidate howner
  · intro owner candidate place hcandidate howner
    rw [owns_setParentSlot] at hcandidate
    rw [hmembership] at howner
    rw [hmembership, hslot]
    refine (h.child_of_attached hcandidate howner).imp_left ?_
    rintro ⟨slot, hlt, hplace, htold⟩
    refine ⟨slot, hlt, hplace, ?_⟩
    split
    · rename_i hsame
      subst hsame
      have howners := h.linked.unique hcandidate howns
      rw [howners, hparent] at howner
      cases howner
      exact Or.inr rfl
    · rename_i hother
      exact htold.imp_left fun hmem => (List.mem_cons.mp hmem).resolve_left hother
  · intro other hother
    rw [tree_setParentSlot, hmembership]
    exact h.root hother
  · intro other hother
    obtain ⟨halone, hnone⟩ := h.root_alone hother
    rw [tree_setParentSlot, hhasParent, hslot, if_neg]
    · exact ⟨halone, hnone⟩
    · intro hsame
      rw [hsame] at halone
      exact h.linked.not_owns halone howns
  · intro other place hother hroot
    rw [hmembership] at hother
    rw [hhasParent]
    exact h.hasParent_of_attached hother hroot
  · intro other hother
    rw [hmembership] at hother
    rw [hslot, if_neg]
    · exact h.parentSlot_of_detached hother
    · rintro rfl
      obtain ⟨place, hplace⟩ := h.open_attached List.mem_cons_self
      exact ne_of_detached hother hplace rfl

theorem close (h : StrictWithin tree due (id :: open_) store)
    (halone : (store.node id).hasParent = false) : StrictWithin tree due open_ store := by
  refine { h with open_attached := fun hother => h.open_attached (List.mem_cons_of_mem id hother),
                  child_of_attached := ?_ }
  intro owner candidate home howns howner
  refine (h.child_of_attached howns howner).imp_left ?_
  rintro ⟨slot, hlt, hslot, htold⟩
  refine ⟨slot, hlt, hslot, htold.imp_left fun hmem => ?_⟩
  refine (List.mem_cons.mp hmem).resolve_left ?_
  rintro rfl
  exact h.linked.not_owns halone howns

end StrictWithin

def detachedNodes (store : Store) : Finset NodeId :=
  (Finset.range store.nodes.size).filter fun id => (store.node id).membership = none

/-- A store after registration: nodes have joined trees, and none of them was made or linked. -/
structure Registers (before after : Store) : Prop where
  extend : Extends before after
  size : after.nodes.size = before.nodes.size
  treeCount : after.trees.size = before.trees.size
  children (id : NodeId) : (after.node id).children = (before.node id).children

namespace Registers

theorem refl (store : Store) : Registers store store :=
  ⟨.refl store, rfl, rfl, fun _ => rfl⟩

theorem trans {first second third : Store} (hleft : Registers first second)
    (hright : Registers second third) : Registers first third where
  extend := hleft.extend.trans hright.extend
  size := hright.size.trans hleft.size
  treeCount := hright.treeCount.trans hleft.treeCount
  children id := (hright.children id).trans (hleft.children id)

theorem enrol (store : Store) (tree : TreeId) (hdetached : (store.node id).membership = none) :
    Registers store (store.enrol tree id) where
  extend := .enrol store tree hdetached
  size := size_enrol store tree id
  treeCount := treeCount_enrol store tree id
  children := children_enrol store tree id

theorem setParentSlot (store : Store) (id : NodeId) (slot : Nat) :
    Registers store (store.setParentSlot id slot) where
  extend := .setParentSlot store id slot
  size := size_setParentSlot store id slot
  treeCount := rfl
  children other := children_setParentSlot store id other slot

theorem owns_iff {before after : Store} (h : Registers before after) :
    after.Owns parent child ↔ before.Owns parent child := by
  rw [Owns, h.children, Owns]

theorem detachedNodes_subset {before after : Store} (h : Registers before after) :
    after.detachedNodes ⊆ before.detachedNodes := by
  intro other hother
  simp only [detachedNodes, Finset.mem_filter, Finset.mem_range] at hother ⊢
  refine ⟨by rw [← h.size]; exact hother.1, ?_⟩
  cases hbefore : (before.node other).membership with
  | none => rfl
  | some home =>
    rw [h.extend.membership hbefore] at hother
    cases hother.2

end Registers

theorem card_detachedNodes_enrol_lt (store : Store) (tree : TreeId) (hid : id < store.nodes.size)
    (hdetached : (store.node id).membership = none) :
    (store.enrol tree id).detachedNodes.card < store.detachedNodes.card := by
  refine Finset.card_lt_card ⟨(Registers.enrol store tree hdetached).detachedNodes_subset, ?_⟩
  intro hsubset
  have hmem : id ∈ store.detachedNodes := by
    simp only [detachedNodes, Finset.mem_filter, Finset.mem_range]
    exact ⟨hid, hdetached⟩
  have hleft := hsubset hmem
  simp only [detachedNodes, Finset.mem_filter, membership_enrol store tree id hid, if_pos] at hleft
  cases hleft.2

theorem card_detachedNodes_le (store : Store) : store.detachedNodes.card ≤ store.nodes.size := by
  calc store.detachedNodes.card ≤ (Finset.range store.nodes.size).card := Finset.card_filter_le _ _
    _ = store.nodes.size := Finset.card_range store.nodes.size

namespace StrictWithin

/-- Adopting children that are due succeeds where registering one node succeeds. -/
theorem adopt {registerOne : NodeId → StoreM Unit} {bound : Nat}
    (hregister : ∀ {store : Store} {id : NodeId} {due open_ : List NodeId},
      StrictWithin tree (id :: due) open_ store → tree < store.trees.size → id < store.nodes.size →
      store.detachedNodes.card < bound →
      ∃ after, registerOne id store = .ok () after ∧ StrictWithin tree due (id :: open_) after ∧
        Registers store after) :
    ∀ {children : List NodeId} {store : Store} {home : Membership},
      StrictWithin tree (children ++ due) open_ store → tree < store.trees.size →
      (∀ child ∈ children, store.Owns parent child) →
      (store.node parent).membership = some home → store.detachedNodes.card < bound →
      ∃ after, Store.adopt registerOne home.slot children store = .ok () after ∧
        StrictWithin tree due open_ after ∧ Registers store after := by
  intro children
  induction children with
  | nil =>
    intro store home hstrict _ _ _ _
    exact ⟨store, rfl, hstrict, .refl store⟩
  | cons child children ih =>
    intro store home hstrict htree howns hparent hbound
    have hchild := howns child List.mem_cons_self
    obtain ⟨middle, hmiddle, hopen, hregisters⟩ :=
      hregister hstrict htree (hstrict.sound.child_lt hchild) hbound
    have hmiddleParent := hregisters.extend.membership hparent
    have hclosed := hopen.setParentSlot (hregisters.owns_iff.mpr hchild) hmiddleParent
    have htold := hregisters.trans (.setParentSlot middle child home.slot)
    obtain ⟨after, hafter, hend, hrest⟩ := ih hclosed (by rwa [htold.treeCount])
      (fun other hother => htold.owns_iff.mpr (howns other (List.mem_cons_of_mem child hother)))
      (htold.extend.membership hparent)
      (Nat.lt_of_le_of_lt (Finset.card_le_card htold.detachedNodes_subset) hbound)
    refine ⟨after, ?_, hend, htold.trans hrest⟩
    rw [Store.adopt, hmiddle]
    exact hafter

/-- Registering a node that is due succeeds, as long as `fuel` exceeds the number of detached
nodes. -/
theorem registerWithin (fuel : Nat) :
    ∀ {store : Store} {id : NodeId} {due open_ : List NodeId},
      StrictWithin tree (id :: due) open_ store → tree < store.trees.size → id < store.nodes.size →
      store.detachedNodes.card < fuel →
      ∃ after, Store.registerWithin tree fuel id store = .ok () after ∧
        StrictWithin tree due (id :: open_) after ∧ Registers store after := by
  induction fuel with
  | zero => exact fun _ _ _ hfuel => absurd hfuel (Nat.not_lt_zero _)
  | succ fuel ih =>
    intro store id due open_ hstrict htree hid hfuel
    have hdetached := hstrict.detached_of_due
    have henrol := Registers.enrol store tree hdetached
    have hless := card_detachedNodes_enrol_lt store tree hid hdetached
    obtain ⟨after, hafter, hend, hregisters⟩ := adopt ih (hstrict.enrol htree hid)
      (by rwa [henrol.treeCount]) (fun child hchild => henrol.owns_iff.mpr hchild)
      (by rw [membership_enrol store tree id hid, if_pos rfl]) (by omega)
    refine ⟨after, ?_, hend, henrol.trans hregisters⟩
    rw [Store.registerWithin, Node.tree?, hdetached]
    exact hafter

theorem register (h : StrictWithin tree (id :: due) open_ store) (htree : tree < store.trees.size)
    (hid : id < store.nodes.size) :
    ∃ after, Store.register tree id store = .ok () after ∧
      StrictWithin tree due (id :: open_) after ∧ Registers store after :=
  h.registerWithin _ htree hid (Nat.lt_succ_of_le (card_detachedNodes_le store))

end StrictWithin

end RiskScan.Store

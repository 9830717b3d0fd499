import Mathlib.Data.List.Perm.Subperm
import Mathlib.Logic.Relation
import RiskScan.Proofs.Store.StrictTrees
import RiskScan.Store.Outline
/-!
# Traversal of strict trees

Visiting a stack of nodes goes on until the stack is empty. In a strict tree it ends, because
children stand in later slots than their parents, and it meets no node twice, because a node comes
to the stack from its owner only. From the root it meets all nodes of the tree: going from any of
them to its owner, again and again, leads to earlier and earlier slots, and there is no other end
than the root.
-/

namespace RiskScan.Store

open Relation

/-- Visiting a stack ends, having met some nodes in this order. -/
inductive Visits (store : Store) : List NodeId → List NodeId → Prop where
  | done : Visits store [] []
  | next {id : NodeId} {stack order : List NodeId}
      (rest : Visits store ((store.node id).children ++ stack) order) :
      Visits store (id :: stack) (id :: order)

variable {store : Store} {tree : TreeId} {id other : NodeId} {stack order : List NodeId}

namespace Visits

/-- With enough `fuel`, the nodes that are met are those that visiting returns. -/
theorem visit_eq (h : Visits store stack order) {fuel : Nat} (hfuel : order.length ≤ fuel) :
    store.visit fuel stack = order := by
  induction h generalizing fuel with
  | done => cases fuel <;> rfl
  | @next id stack order _ ih =>
    cases fuel with
    | zero => exact absurd hfuel (Nat.not_succ_le_zero order.length)
    | succ fuel => rw [visit, ih (Nat.le_of_succ_le_succ hfuel)]

/-- What is met is what lies below the nodes on the stack. -/
theorem mem_iff (h : Visits store stack order) :
    other ∈ order ↔ ∃ id ∈ stack, ReflTransGen store.Owns id other := by
  induction h with
  | done => simp
  | @next id stack order _ ih =>
    rw [List.mem_cons, ih]
    constructor
    · rintro (rfl | ⟨first, hfirst, hpath⟩)
      · exact ⟨other, List.mem_cons_self, .refl⟩
      · rcases List.mem_append.mp hfirst with hchild | hstack
        · exact ⟨id, List.mem_cons_self, .head hchild hpath⟩
        · exact ⟨first, List.mem_cons_of_mem id hstack, hpath⟩
    · rintro ⟨first, hfirst, hpath⟩
      rcases List.mem_cons.mp hfirst with rfl | hstack
      · rcases ReflTransGen.cases_head hpath with rfl | ⟨child, hchild, hrest⟩
        · exact Or.inl rfl
        · exact Or.inr ⟨child, List.mem_append_left stack hchild, hrest⟩
      · exact Or.inr ⟨first, List.mem_append_right _ hstack, hpath⟩

/-- Nothing is met twice on the way from a node that lies on no cycle: whatever has been met or
stacked, except the start, has an owner that has been met. -/
theorem nodup (h : Visits store stack order) (hlinked : Linked store) {start : NodeId}
    (hacyclic : ¬ TransGen store.Owns start start) (visited : List NodeId)
    (hnodup : (visited ++ stack).Nodup)
    (hbelow : ∀ id ∈ stack, ReflTransGen store.Owns start id)
    (howner : ∀ id ∈ visited ++ stack, id ≠ start → ∃ owner ∈ visited, store.Owns owner id) :
    (visited ++ order).Nodup := by
  induction h generalizing visited with
  | done => exact hnodup
  | @next id stack order _ ih =>
    have hid : ReflTransGen store.Owns start id := hbelow id List.mem_cons_self
    obtain ⟨hvisited, hstack, hdisjoint⟩ := List.nodup_append.mp hnodup
    have hfresh : ∀ child ∈ (store.node id).children, child ∉ visited ++ id :: stack := by
      intro child hchild hold
      have hne : child ≠ start := by
        rintro rfl
        exact hacyclic (TransGen.tail' hid hchild)
      obtain ⟨owner, hmem, howns⟩ := howner child hold hne
      have hsame : owner = id := hlinked.unique howns hchild
      exact hdisjoint owner hmem id List.mem_cons_self hsame
    have hnext : ((visited ++ [id]) ++ ((store.node id).children ++ stack)).Nodup := by
      have hperm : ((visited ++ [id]) ++ ((store.node id).children ++ stack)).Perm
          ((store.node id).children ++ (visited ++ id :: stack)) := by
        have hmove := List.perm_append_comm_assoc (visited ++ [id]) (store.node id).children stack
        rwa [List.append_assoc visited [id] stack, List.singleton_append] at hmove
      refine hperm.nodup_iff.mpr (List.nodup_append.mpr ⟨hlinked.nodup id, hnodup, ?_⟩)
      rintro child hchild _ hold rfl
      exact hfresh child hchild hold
    have hend := ih (visited ++ [id]) hnext ?_ ?_
    · rwa [List.append_assoc, List.singleton_append] at hend
    · intro candidate hcandidate
      rcases List.mem_append.mp hcandidate with hchild | hremains
      · exact hid.tail hchild
      · exact hbelow candidate (List.mem_cons_of_mem id hremains)
    · intro candidate hcandidate hne
      by_cases hchild : candidate ∈ (store.node id).children
      · exact ⟨id, by simp, hchild⟩
      · have hold : candidate ∈ visited ++ id :: stack := by
          simp only [List.mem_append, List.mem_cons, List.not_mem_nil, or_false]
            at hcandidate ⊢
          tauto
        obtain ⟨owner, hmem, howns⟩ := howner candidate hold hne
        exact ⟨owner, List.mem_append_left [id] hmem, howns⟩

/-- If visiting ends for each of some nodes, it ends for all of them one after the other. -/
theorem append {nodes : List NodeId}
    (heach : ∀ id ∈ nodes, ∀ {stack order : List NodeId}, Visits store stack order →
      ∃ below, Visits store (id :: stack) (below ++ order))
    (h : Visits store stack order) : ∃ below, Visits store (nodes ++ stack) (below ++ order) := by
  induction nodes with
  | nil => exact ⟨[], h⟩
  | cons id nodes ih =>
    obtain ⟨rest, hrest⟩ := ih fun other hother => heach other (List.mem_cons_of_mem id hother)
    obtain ⟨first, hfirst⟩ := heach id List.mem_cons_self hrest
    refine ⟨first ++ rest, ?_⟩
    rwa [List.append_assoc]

/-- Where visiting a node meets no node twice, it meets no more nodes than there are. -/
theorem length_le (h : Visits store [id] order) (hnodup : order.Nodup) (hsound : ArenaSound store)
    (hid : id < store.nodes.size) : order.length ≤ store.nodes.size := by
  have hsubset : order ⊆ List.range store.nodes.size := by
    intro other hother
    obtain ⟨first, hfirst, hpath⟩ := h.mem_iff.mp hother
    rw [List.mem_singleton.mp hfirst] at hpath
    rw [List.mem_range]
    rcases ReflTransGen.cases_tail hpath with rfl | ⟨owner, -, howns⟩
    · exact hid
    · exact hsound.child_lt howns
  calc order.length ≤ (List.range store.nodes.size).length := (hnodup.subperm hsubset).length_le
    _ = store.nodes.size := List.length_range

end Visits

namespace Strict

/-- What lies below a registered node is registered in later slots of the same tree. -/
theorem later_of_below (h : Strict store) {home : Membership}
    (hid : (store.node id).membership = some home) (hbelow : TransGen store.Owns id other) :
    ∃ slot, home.slot < slot ∧ (store.node other).membership = some ⟨home.tree, slot⟩ := by
  induction hbelow with
  | single howns =>
    obtain ⟨slot, hlt, hslot, -⟩ := h.child_of_attached howns hid
    exact ⟨slot, hlt, hslot⟩
  | tail _ howns ih =>
    obtain ⟨middle, hmiddle, hmembership⟩ := ih
    obtain ⟨slot, hlt, hslot, -⟩ := h.child_of_attached howns hmembership
    exact ⟨slot, Nat.lt_trans hmiddle hlt, hslot⟩

theorem acyclic (h : Strict store) {home : Membership}
    (hid : (store.node id).membership = some home) : ¬ TransGen store.Owns id id := by
  intro hcycle
  obtain ⟨slot, hlt, hslot⟩ := h.later_of_below hid hcycle
  have hsame : home.slot = slot := congrArg Membership.slot (Option.some.inj (hid.symm.trans hslot))
  exact Nat.ne_of_lt hlt hsame

/-- Visiting ends for a registered node, whatever else is on the stack, if it ends for the rest. -/
theorem visits_cons (h : Strict store) {slot : Nat}
    (hid : (store.node id).membership = some ⟨tree, slot⟩) (hrest : Visits store stack order) :
    ∃ below, Visits store (id :: stack) (below ++ order) := by
  induction hmeasure : (store.tree tree).nodes.size - slot using Nat.strong_induction_on
    generalizing id slot stack order with
  | h bound ih =>
    have hbound : slot < (store.tree tree).nodes.size := h.sound.slot_lt hid
    have hchildren : ∀ child ∈ (store.node id).children, ∀ {stack order : List NodeId},
        Visits store stack order → ∃ below, Visits store (child :: stack) (below ++ order) := by
      intro child hchild stack order hrest
      obtain ⟨later, hlt, hlater, -⟩ := h.child_of_attached hchild hid
      dsimp only at hlt hlater
      exact ih _ (by omega) hlater hrest rfl
    obtain ⟨below, hbelow⟩ := Visits.append hchildren hrest
    exact ⟨id :: below, .next hbelow⟩

/-- The subtree of a registered node is what visiting it meets, each node once. -/
theorem visits_subtree (h : Strict store) {home : Membership}
    (hid : (store.node id).membership = some home) :
    Visits store [id] (store.subtree id) ∧ (store.subtree id).Nodup := by
  obtain ⟨order, horder⟩ := h.visits_cons hid .done
  rw [List.append_nil] at horder
  have hnodup : order.Nodup := by
    refine horder.nodup h.linked (h.acyclic hid) [] (by simp) ?_ ?_
    · intro other hother
      rw [List.mem_singleton.mp hother]
    · intro other hother hne
      exact absurd (List.mem_singleton.mp hother) hne
  have hlength := horder.length_le hnodup h.sound (lt_size_of_membership hid)
  have hsubtree : store.subtree id = order := horder.visit_eq hlength
  rw [hsubtree]
  exact ⟨horder, hnodup⟩

theorem exists_owner (h : Strict store) {slot : Nat}
    (hid : (store.node id).membership = some ⟨tree, slot⟩) (hroot : id ≠ (store.tree tree).root) :
    ∃ owner place, place < slot ∧ store.Owns owner id ∧
      (store.node owner).membership = some ⟨tree, place⟩ ∧
      (store.node id).parentSlot = some place := by
  obtain ⟨owner, howns⟩ := (h.linked.hasParent_iff id).mp ((h 0).hasParent_of_attached hid hroot)
  cases howner : (store.node owner).membership with
  | none =>
    have hdetached := (h 0).child_of_detached howns howner
    rw [hid] at hdetached
    cases hdetached
  | some place =>
    obtain ⟨later, hlt, hlater, htold⟩ := h.child_of_attached howns howner
    rw [hid] at hlater
    cases hlater
    exact ⟨owner, place.slot, hlt, howns, howner, htold⟩

theorem below_root (h : Strict store) {slot : Nat}
    (hid : (store.node id).membership = some ⟨tree, slot⟩) :
    ReflTransGen store.Owns (store.tree tree).root id := by
  induction slot using Nat.strong_induction_on generalizing id with
  | h slot ih =>
    by_cases hroot : id = (store.tree tree).root
    · rw [hroot]
    · obtain ⟨owner, place, hlt, howns, howner, -⟩ := h.exists_owner hid hroot
      exact (ih place hlt howner).tail howns

theorem subtree_root_perm (h : Strict store) (htree : tree < store.trees.size) :
    (store.subtree (store.tree tree).root).Perm (store.tree tree).nodes.toList := by
  obtain ⟨place, hplace⟩ := h.root htree
  obtain ⟨hvisits, hnodup⟩ := h.visits_subtree hplace
  refine (List.perm_ext_iff_of_nodup hnodup (h.sound.nodup tree)).mpr fun id => ?_
  rw [hvisits.mem_iff]
  constructor
  · rintro ⟨first, hfirst, hpath⟩
    rw [List.mem_singleton.mp hfirst] at hpath
    rcases ReflTransGen.cases_head hpath with rfl | ⟨child, howns, hrest⟩
    · exact h.sound.mem_of_membership_eq hplace
    · obtain ⟨slot, -, hslot⟩ := h.later_of_below hplace (TransGen.head' howns hrest)
      exact h.sound.mem_of_membership_eq hslot
  · intro hid
    obtain ⟨slot, hslot⟩ := h.sound.membership_of_mem_toList hid
    exact ⟨_, List.mem_singleton_self _, h.below_root hslot⟩

end Strict

/-- As long as no node is registered on its own, trees are strict. Visiting the root of a tree ends,
and meets every node of the tree once and no other node. The root has no parent. Any other node of
the tree occurs once in the children of one node of the tree and in those of no other node, and the
slot of that node is the one that it knows as its parent's. Visiting ends from every node of the
tree, and none lies below itself. -/
theorem trees_of_ordinarilyReachable (hreachable : OrdinarilyReachable store) (tree : TreeId)
    (htree : tree < store.trees.size) :
    (Visits store [(store.tree tree).root] (store.subtree (store.tree tree).root) ∧
      (store.subtree (store.tree tree).root).Nodup ∧
      (store.subtree (store.tree tree).root).Perm (store.tree tree).nodes.toList) ∧
    ((store.node (store.tree tree).root).hasParent = false ∧
      (store.node (store.tree tree).root).parentSlot = none ∧
      ∀ owner, (store.tree tree).root ∉ (store.node owner).children) ∧
    (∀ id ∈ (store.tree tree).nodes.toList, id ≠ (store.tree tree).root →
      ∃ owner slot, (store.node owner).membership = some ⟨tree, slot⟩ ∧
        (store.node owner).children.count id = 1 ∧
        (∀ other, id ∈ (store.node other).children → other = owner) ∧
        (store.node id).parentSlot = some slot) ∧
    ∀ id ∈ (store.tree tree).nodes.toList,
      Visits store [id] (store.subtree id) ∧ ¬ TransGen store.Owns id id := by
  have hstrict := hreachable.strict
  obtain ⟨place, hplace⟩ := hstrict.root htree
  obtain ⟨hvisits, hnodup⟩ := hstrict.visits_subtree hplace
  refine ⟨⟨hvisits, hnodup, hstrict.subtree_root_perm htree⟩, ?_, ?_, ?_⟩
  · obtain ⟨halone, hnone⟩ := (hstrict 0).root_alone htree
    exact ⟨halone, hnone, fun owner => hstrict.not_owns_root htree⟩
  · intro id hmem hroot
    obtain ⟨slot, hslot⟩ := hstrict.sound.membership_of_mem_toList hmem
    obtain ⟨owner, place, -, howns, howner, htold⟩ := hstrict.exists_owner hslot hroot
    refine ⟨owner, place, howner, ?_, ?_, htold⟩
    · exact List.count_eq_one_of_mem (hstrict.linked.nodup owner) howns
    · exact fun other hother => hstrict.linked.unique hother howns
  · intro id hmem
    obtain ⟨slot, hslot⟩ := hstrict.sound.membership_of_mem_toList hmem
    exact ⟨(hstrict.visits_subtree hslot).1, hstrict.acyclic hslot⟩

/-- Nodes 3 and 4 own each other, so neither joins the tree. Nodes 1 and 2 join it together. -/
def joiningPair : List Operation :=
  [.create { kind := "A", description := "" }, .create { kind := "B", description := "" },
    .create { kind := "C", description := "" }, .create { kind := "D", description := "" },
    .create { kind := "E", description := "" }, .plant 0, .addChild 3 4, .addChild 4 3,
    .addChild 1 2,
    .addChild 0 3, .plant 4, .addChild 0 1]

theorem trees_of_joiningPair :
    ∃ store, OrdinarilyReachable store ∧ store.trees.size = 1 ∧
      Visits store [0] (store.subtree 0) ∧ (store.subtree 0).Perm [0, 1, 2] ∧
      store.Owns 3 4 ∧ store.Owns 4 3 ∧ (store.node 3).membership = none ∧
      ∃ owner slot, (store.node owner).membership = some ⟨0, slot⟩ ∧
        (store.node 2).parentSlot = some slot := by
  have hreachable : OrdinarilyReachable (empty.run joiningPair) :=
    reaches_run .refl joiningPair (by decide +kernel)
  have hcount : (empty.run joiningPair).trees.size = 1 := by decide +kernel
  have hroot : ((empty.run joiningPair).tree 0).root = 0 := by decide +kernel
  have hnodes : ((empty.run joiningPair).tree 0).nodes.toList = [0, 1, 2] := by decide +kernel
  have hfirst : 4 ∈ ((empty.run joiningPair).node 3).children := by decide +kernel
  have hsecond : 3 ∈ ((empty.run joiningPair).node 4).children := by decide +kernel
  have hdetached : ((empty.run joiningPair).node 3).membership = none := by decide +kernel
  generalize empty.run joiningPair = store at *
  obtain ⟨⟨hvisits, -, hperm⟩, -, howner, -⟩ :=
    trees_of_ordinarilyReachable hreachable 0 (by rw [hcount]; exact Nat.zero_lt_one)
  rw [hroot] at hvisits hperm howner
  rw [hnodes] at hperm howner
  obtain ⟨owner, slot, hmembership, -, -, htold⟩ := howner 2 (by simp) (by decide)
  exact ⟨store, hreachable, hcount, hvisits, hperm, hfirst, hsecond, hdetached, owner, slot,
    hmembership,
    htold⟩

end RiskScan.Store

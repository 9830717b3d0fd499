import RiskScan.Proofs.Store.LeafPaths
import RiskScan.Proofs.Store.Outlines
/-!
# The order of paths

Paths are enumerated from left to right, and so is what visiting meets. Where the outline of a node
is complete, each leaf that is met ends one path, and the paths come in the order of their leaves.
In a strict tree a path can also be told from its leaf alone: it is the chain of parents that leads
up from there.
-/

namespace RiskScan

namespace Outline

variable {store : Store}

theorem ne_nil_of_mem_paths {outline : Outline} {path : List NodeId} (h : path ∈ outline.paths) :
    path ≠ [] := by
  rintro rfl
  have hhead := head?_of_mem_paths h
  cases hhead

mutual

/-- The paths of a complete outline end in its leaves, in their order. -/
theorem getLast?_paths : (outline : Outline) → outline.Shows store →
    outline.paths.map List.getLast? =
      (outline.nodes.filter fun id => (store.node id).isLeaf).map some
  | .node id [], h => by
    have hleaf : (store.node id).isLeaf = true := List.isEmpty_iff.mpr h.1.symm
    rw [paths, nodes, nodesOfAll, List.filter_cons, if_pos hleaf]
    rfl
  | .node id (child :: children), h => by
    have hleaf : ¬ (store.node id).isLeaf = true := by
      rw [Node.isLeaf, ← h.1]
      exact Bool.false_ne_true
    have hlast : ∀ path ∈ pathsOfAll (child :: children), (id :: path).getLast? =
        path.getLast? := by
      intro path hpath
      obtain ⟨outline, -, hmem⟩ := mem_pathsOfAll.mp hpath
      rw [List.getLast?_cons, List.getLast?_eq_some_getLast (ne_nil_of_mem_paths hmem),
        Option.getD_some]
    rw [paths, ← pathsOfAll, nodes, List.filter_cons, if_neg hleaf, List.map_map,
      ← getLast?_pathsOfAll (child :: children) h.2]
    exact List.map_congr_left hlast

theorem getLast?_pathsOfAll : (outlines : List Outline) → ShowsAll store outlines →
    (pathsOfAll outlines).map List.getLast? =
      ((nodesOfAll outlines).filter fun id => (store.node id).isLeaf).map some
  | [], _ => rfl
  | outline :: outlines, h => by
    rw [pathsOfAll, nodesOfAll, List.map_append, List.filter_append, List.map_append,
      getLast?_paths outline h.1, getLast?_pathsOfAll outlines h.2]

end

end Outline

namespace Store

variable {store : Store} {tree : TreeId} {id other parent leaf : NodeId} {path chain : List NodeId}

/-- A node of a tree knows another one of it as its parent. -/
def KnowsParent (store : Store) (id parent : NodeId) : Prop :=
  ∃ home slot, (store.node id).membership = some home ∧ (store.node id).parentSlot = some slot ∧
    (store.tree home.tree).nodes[slot]? = some parent

/-- The chain of parents from a node up to `top`, the node itself first. -/
inductive ParentChain (store : Store) (top : NodeId) : NodeId → List NodeId → Prop where
  | top : ParentChain store top top [top]
  | up {id parent : NodeId} {chain : List NodeId} (knows : store.KnowsParent id parent)
      (rest : ParentChain store top parent chain) : ParentChain store top id (id :: chain)

theorem ParentChain.concat (h : ParentChain store other id chain)
    (hknows : store.KnowsParent other parent) :
    ParentChain store parent id (chain ++ [parent]) := by
  induction h with
  | top => exact .up hknows .top
  | up knows _ ih => exact .up knows ih

namespace ChildTree

/-- The paths from a node end in the leaves that visiting meets, in the order in which it meets
them. -/
theorem getLast?_paths (h : store.ChildTree id) (hsound : ArenaSound store)
    (hid : id < store.nodes.size) :
    (store.paths id).map List.getLast? =
      ((store.subtree id).filter fun other => (store.node other).isLeaf).map some := by
  obtain ⟨hshows, hnodes⟩ := h.shows_outline hsound hid
  rw [paths_eq, Outline.getLast?_paths _ hshows, hnodes]

/-- No two paths end in the same leaf. -/
theorem nodup_paths (h : store.ChildTree id) (hsound : ArenaSound store)
    (hid : id < store.nodes.size) :
    (store.paths id).Nodup := by
  have hleaves : ((store.subtree id).filter fun other => (store.node other).isLeaf).Nodup :=
    (h.visits_subtree hsound hid).2.filter _
  refine List.Nodup.of_map List.getLast? ?_
  rw [h.getLast?_paths hsound hid]
  exact hleaves.map (Option.some_injective NodeId)

end ChildTree

namespace Strict

theorem owns_of_knowsParent (h : Strict store) (hknows : store.KnowsParent id parent) :
    store.Owns parent id := by
  obtain ⟨home, slot, hid, htold, hparent⟩ := hknows
  have hroot : id ≠ (store.tree home.tree).root := by
    rintro rfl
    rw [((h 0).root_alone (h.sound.tree_lt hid)).2] at htold
    cases htold
  obtain ⟨owner, place, -, howns, howner, hplace⟩ := h.exists_owner hid hroot
  rw [htold] at hplace
  cases hplace
  rw [h.sound.mem_of_membership howner] at hparent
  cases hparent
  exact howns

theorem knowsParent_of_owns (h : Strict store) {home : Membership} (howns : store.Owns parent id)
    (hparent : (store.node parent).membership = some home) : store.KnowsParent id parent := by
  obtain ⟨slot, -, hslot, htold⟩ := h.child_of_attached howns hparent
  exact ⟨_, _, hslot, htold, h.sound.mem_of_membership hparent⟩

/-- Every node of a path but the first is a child of the one before, and knows its slot. -/
theorem isChain_of_leafPath (h : Strict store) {home : Membership}
    (hid : (store.node id).membership = some home) (hpath : LeafPath store id path) :
    path.IsChain fun parent child => store.Owns parent child ∧
      ∃ slot, (store.node parent).slot? = some slot ∧
      (store.node child).parentSlot = some slot := by
  induction hpath generalizing home with
  | leaf _ => exact .singleton _
  | @onward id child path howns hrest ih =>
    obtain ⟨slot, -, hslot, htold⟩ := h.child_of_attached howns hid
    obtain ⟨rest, rfl⟩ : ∃ rest, path = child :: rest := by
      cases hrest with
      | leaf _ => exact ⟨[], rfl⟩
      | onward _ _ => exact ⟨_, rfl⟩
    refine List.isChain_cons_cons.mpr ⟨⟨howns, home.slot, ?_, htold⟩, ih hslot⟩
    rw [Node.slot?, hid, Option.map_some]

/-- A path, read from its leaf, is the chain of parents that leads up from there. -/
theorem parentChain_of_leafPath (h : Strict store) {home : Membership}
    (hid : (store.node id).membership = some home) (hpath : LeafPath store id path) :
    ∃ leaf, (store.node leaf).isLeaf = true ∧ ParentChain store id leaf path.reverse := by
  induction hpath generalizing home with
  | @leaf id hleaf => exact ⟨id, List.isEmpty_iff.mpr hleaf, .top⟩
  | @onward id child path howns _ ih =>
    obtain ⟨slot, -, hslot, -⟩ := h.child_of_attached howns hid
    obtain ⟨leaf, hleaf, hchain⟩ := ih hslot
    refine ⟨leaf, hleaf, ?_⟩
    rw [List.reverse_cons]
    exact hchain.concat (h.knowsParent_of_owns howns hid)

/-- A chain of parents above the beginning of a path makes it longer. -/
theorem leafPath_of_parentChain (h : Strict store) (hchain : ParentChain store id other chain)
    (hpath : LeafPath store other (other :: path)) : LeafPath store id (chain.reverse ++ path) := by
  induction hchain generalizing path with
  | top => exact hpath
  | @up other parent chain hknows _ ih =>
    have hlonger := ih (.onward (h.owns_of_knowsParent hknows) hpath)
    rwa [List.reverse_cons, List.append_assoc]

/-- The paths from a registered node are the chains of parents that lead up to it from the
leaves. -/
theorem mem_paths_iff_parentChain (h : Strict store) {home : Membership}
    (hid : (store.node id).membership = some home) :
    path ∈ store.paths id ↔
      ∃ leaf, (store.node leaf).isLeaf = true ∧ ParentChain store id leaf path.reverse := by
  rw [h.mem_paths_iff hid]
  constructor
  · exact h.parentChain_of_leafPath hid
  · rintro ⟨leaf, hleaf, hchain⟩
    have hpath := h.leafPath_of_parentChain hchain (.leaf (List.isEmpty_iff.mp hleaf))
    rwa [List.reverse_reverse, List.append_nil] at hpath

end Strict

/-- As long as no node is registered on its own, the paths from a node of a tree end in the leaves
that visiting it meets, in the same order; from the root, these are the leaves of the tree. Every
path begins at the node and goes on from parent to child, by the slots that children know as their
parents'. So the paths are the chains of parents that lead up to the node from the leaves, each of
them once. What has been passed before is put in front of every path. -/
theorem paths_of_ordinarilyReachable (hreachable : OrdinarilyReachable store) {home : Membership}
    (hid : (store.node id).membership = some home) :
    (Visits store [id] (store.subtree id) ∧
      (store.paths id).map List.getLast? =
        ((store.subtree id).filter fun other => (store.node other).isLeaf).map some ∧
      (id = (store.tree home.tree).root →
        (store.paths id).map List.getLast? = (store.leaves home.tree).map some)) ∧
    (∀ path ∈ store.paths id, path.head? = some id ∧
      path.IsChain fun parent child => child ∈ (store.node parent).children ∧
        ∃ slot, (store.node parent).slot? = some slot ∧ (store.node child).parentSlot = some slot) ∧
    (∀ path, path ∈ store.paths id ↔
      ∃ leaf, (store.node leaf).isLeaf = true ∧ ParentChain store id leaf path.reverse) ∧
    (store.paths id).Nodup ∧
    ∀ before, store.pathsAfter before id = (store.paths id).map (before ++ ·) := by
  have hstrict := hreachable.strict
  have hlt := lt_size_of_membership hid
  have htree := hstrict.childTree hid
  have hlast := htree.getLast?_paths hstrict.sound hlt
  refine ⟨⟨(htree.visits_subtree hstrict.sound hlt).1, hlast, ?_⟩, ?_, ?_, ?_, ?_⟩
  · rintro rfl
    exact hlast
  · intro path hpath
    refine ⟨?_, hstrict.isChain_of_leafPath hid ((hstrict.mem_paths_iff hid).mp hpath)⟩
    rw [paths_eq] at hpath
    rw [Outline.head?_of_mem_paths hpath, outline, id_outlineWithin]
  · exact fun path => hstrict.mem_paths_iff_parentChain hid
  · exact htree.nodup_paths hstrict.sound hlt
  · intro before
    rw [paths_eq, pathsAfter, Outline.pathsAfter_eq]

/-- Node 2 gets its children before it joins the tree, and node 1 after it has joined. -/
def graftedTree : List Operation :=
  [.create { kind := "A", description := "" }, .create { kind := "B", description := "" },
    .create { kind := "C", description := "" }, .create { kind := "D", description := "" },
    .create { kind := "E", description := "" }, .create { kind := "F", description := "" },
    .addChild 2 4, .addChild 2 3, .plant 0, .addChild 0 2, .addChild 0 1, .addChild 1 5]

/-- Leaf 4 has slot 2 and leaf 3 slot 3; node 1, with leaf 5, comes last. -/
theorem paths_of_graftedTree :
    ∃ store, OrdinarilyReachable store ∧ (store.node 0).membership = some ⟨0, 0⟩ ∧
      store.paths 0 = [[0, 2, 4], [0, 2, 3], [0, 1, 5]] ∧
      [[0, 2, 4], [0, 2, 3], [0, 1, 5]].map List.getLast? = (store.leaves 0).map some ∧
      ParentChain store 0 3 [3, 2, 0] ∧
      store.pathsAfter [5, 5] 0 = [[5, 5, 0, 2, 4], [5, 5, 0, 2, 3], [5, 5, 0, 1, 5]] := by
  have hreachable : OrdinarilyReachable (empty.run graftedTree) :=
    reaches_run .refl graftedTree (by decide +kernel)
  have hmembership : ((empty.run graftedTree).node 0).membership = some ⟨0, 0⟩ := by decide +kernel
  have hroot : ((empty.run graftedTree).tree 0).root = 0 := by decide +kernel
  have hpaths : (empty.run graftedTree).paths 0 =
      [[0, 2, 4], [0, 2, 3], [0, 1, 5]] := by decide +kernel
  generalize empty.run graftedTree = store at *
  obtain ⟨⟨-, -, hleaves⟩, hchain, hmem, -, hbefore⟩ :=
    paths_of_ordinarilyReachable hreachable hmembership
  rw [hpaths] at hleaves hmem hbefore
  obtain ⟨leaf, -, hup⟩ := (hmem [0, 2, 3]).mp (by simp)
  have hleaf : leaf = 3 := by
    cases hup
    rfl
  rw [hleaf] at hup
  exact ⟨store, hreachable, hmembership, hpaths, hleaves hroot.symm, hup, hbefore [5, 5]⟩

end Store

end RiskScan

import RiskScan.Proofs.Store.Traversal
/-!
# Paths to leaves

The outline of a node is cut off at a depth. In a strict tree the cut is never reached, because each
level goes on in a later slot, and so the paths of the outline are all ways down from the node to a
leaf. Every node of a tree lies on one of those that begin at the root.
-/

namespace RiskScan

theorem Outline.mem_pathsOfAll {outlines : List Outline} {path : List NodeId} :
    path ∈ pathsOfAll outlines ↔ ∃ outline ∈ outlines, path ∈ outline.paths := by
  induction outlines with
  | nil => simp [pathsOfAll]
  | cons outline outlines ih =>
    rw [pathsOfAll, List.mem_append, ih, List.exists_mem_cons_iff]

namespace Store

open Relation

/-- A way from a node down to a leaf, every node but the first a child of the one before. -/
inductive LeafPath (store : Store) : NodeId → List NodeId → Prop where
  | leaf {id : NodeId} (isLeaf : (store.node id).children = []) : LeafPath store id [id]
  | onward {id child : NodeId} {path : List NodeId} (owns : store.Owns id child)
      (rest : LeafPath store child path) : LeafPath store id (id :: path)

variable {store : Store} {tree : TreeId} {id other : NodeId} {path : List NodeId}

namespace LeafPath

theorem mem_head (h : LeafPath store id path) : id ∈ path := by
  cases h with
  | leaf _ => exact List.mem_singleton_self id
  | onward _ _ => exact List.mem_cons_self

theorem leads_to (h : LeafPath store id path) (hother : other ∈ path) :
    ReflTransGen store.Owns id other := by
  induction h with
  | leaf _ => rw [List.mem_singleton.mp hother]
  | onward owns _ ih =>
    rcases List.mem_cons.mp hother with rfl | hrest
    · exact .refl
    · exact .head owns (ih hrest)

end LeafPath

theorem mem_paths_outline {outlines : List Outline} :
    path ∈ (Outline.node id outlines).paths ↔
      (outlines = [] ∧ path = [id]) ∨
        ∃ outline ∈ outlines, ∃ rest ∈ outline.paths, path = id :: rest := by
  cases outlines with
  | nil => simp [Outline.paths]
  | cons first outlines =>
    rw [Outline.paths, ← Outline.pathsOfAll, List.mem_map]
    simp only [Outline.mem_pathsOfAll, reduceCtorEq, false_and, false_or]
    constructor
    · rintro ⟨rest, ⟨outline, houtline, hrest⟩, rfl⟩
      exact ⟨outline, houtline, rest, hrest, rfl⟩
    · rintro ⟨outline, houtline, rest, hrest, rfl⟩
      exact ⟨rest, ⟨outline, houtline, hrest⟩, rfl⟩

theorem ArenaSound.treeSize_le (hsound : ArenaSound store) (tree : TreeId) :
    (store.tree tree).nodes.size ≤ store.nodes.size := by
  have hsubset : (store.tree tree).nodes.toList ⊆ List.range store.nodes.size := by
    intro id hid
    obtain ⟨slot, hslot⟩ := hsound.membership_of_mem_toList hid
    exact List.mem_range.mpr (lt_size_of_membership hslot)
  calc (store.tree tree).nodes.size = (store.tree tree).nodes.toList.length :=
    Array.length_toList.symm
    _ ≤ (List.range store.nodes.size).length := ((hsound.nodup tree).subperm hsubset).length_le
    _ = store.nodes.size := List.length_range

namespace Strict

/-- The paths of an outline that reaches beyond the last slot are those that end in leaves. -/
theorem mem_paths_outlineWithin (h : Strict store) {fuel slot : Nat}
    (hid : (store.node id).membership = some ⟨tree, slot⟩)
    (hfuel : (store.tree tree).nodes.size ≤ fuel + slot) :
    path ∈ (store.outlineWithin fuel id).paths ↔ LeafPath store id path := by
  -- children have later slots than their parents, so fuel and slot together never fall short of the
  -- end
  induction fuel generalizing id slot path with
  | zero =>
    have hslot : slot < (store.tree tree).nodes.size := h.sound.slot_lt hid
    omega
  | succ fuel ih =>
    have hchild : ∀ child ∈ (store.node id).children, ∀ rest,
        rest ∈ (store.outlineWithin fuel child).paths ↔ LeafPath store child rest := by
      intro child hmem rest
      obtain ⟨later, hlt, hlater, -⟩ := h.child_of_attached hmem hid
      dsimp only at hlt
      exact ih hlater (by omega)
    rw [outlineWithin, mem_paths_outline, List.map_eq_nil_iff]
    constructor
    · rintro (⟨hleaf, rfl⟩ | ⟨outline, houtline, rest, hrest, rfl⟩)
      · exact .leaf hleaf
      · obtain ⟨child, hmem, rfl⟩ := List.mem_map.mp houtline
        exact .onward hmem ((hchild child hmem rest).mp hrest)
    · rintro (hleaf | ⟨howns, hrest⟩)
      · exact Or.inl ⟨hleaf, rfl⟩
      · exact Or.inr ⟨_, List.mem_map_of_mem howns, _, (hchild _ howns _).mpr hrest, rfl⟩

/-- The paths from a registered node are all ways from it down to a leaf. -/
theorem mem_paths_iff (h : Strict store) {home : Membership}
    (hid : (store.node id).membership = some home) :
    path ∈ store.paths id ↔ LeafPath store id path := by
  have hsize := h.sound.treeSize_le home.tree
  rw [paths_eq, outline]
  exact h.mem_paths_outlineWithin hid (by omega)

theorem exists_leafPath (h : Strict store) {slot : Nat}
    (hid : (store.node id).membership = some ⟨tree, slot⟩) : ∃ path, LeafPath store id path := by
  induction hmeasure : (store.tree tree).nodes.size - slot using Nat.strong_induction_on
    generalizing id slot with
  | h bound ih =>
    have hslot : slot < (store.tree tree).nodes.size := h.sound.slot_lt hid
    cases hchildren : (store.node id).children with
    | nil => exact ⟨[id], .leaf hchildren⟩
    | cons child children =>
      have howns : store.Owns id child := by
        rw [Owns, hchildren]
        exact List.mem_cons_self
      obtain ⟨later, hlt, hlater, -⟩ := h.child_of_attached howns hid
      dsimp only at hlt
      obtain ⟨path, hpath⟩ := ih _ (by omega) hlater rfl
      exact ⟨id :: path, .onward howns hpath⟩

/-- What lies below a registered node lies on a way from it down to a leaf. -/
theorem exists_leafPath_of_below (h : Strict store) {home : Membership}
    (hid : (store.node id).membership = some home) (hbelow : ReflTransGen store.Owns id other) :
    ∃ path, LeafPath store id path ∧ other ∈ path := by
  induction hbelow using ReflTransGen.head_induction_on generalizing home with
  | refl =>
    obtain ⟨path, hpath⟩ := h.exists_leafPath hid
    exact ⟨path, hpath, hpath.mem_head⟩
  | head howns _ ih =>
    obtain ⟨slot, -, hslot, -⟩ := h.child_of_attached howns hid
    obtain ⟨path, hpath, hmem⟩ := ih hslot
    exact ⟨_, .onward howns hpath, List.mem_cons_of_mem _ hmem⟩

/-- The nodes on the ways from the root down to leaves are the nodes of the tree. -/
theorem mem_leafPath_root_iff (h : Strict store) (htree : tree < store.trees.size) :
    (∃ path, LeafPath store (store.tree tree).root path ∧ id ∈ path) ↔
      id ∈ (store.tree tree).nodes.toList := by
  obtain ⟨place, hplace⟩ := h.root htree
  constructor
  · rintro ⟨path, hpath, hmem⟩
    rcases reflTransGen_iff_eq_or_transGen.mp (hpath.leads_to hmem) with rfl | hbelow
    · exact h.sound.mem_of_membership_eq hplace
    · obtain ⟨slot, -, hslot⟩ := h.later_of_below hplace hbelow
      exact h.sound.mem_of_membership_eq hslot
  · intro hmem
    obtain ⟨slot, hslot⟩ := h.sound.membership_of_mem_toList hmem
    exact h.exists_leafPath_of_below hplace (h.below_root hslot)

end Strict

end Store

end RiskScan

import RiskScan.Store
/-!
# What lies below a node

The descendants of a node, laid out as a tree of their own, and the two orders in which they are
met: path by path from the node to each leaf, and one by one with every node before its children.
-/

namespace RiskScan

/-- A node with everything below it. -/
inductive Outline where
  | node (id : NodeId) (children : List Outline)

namespace Outline

def id : Outline → NodeId
  | .node id _ => id

mutual

/-- The paths from the top to each leaf, from left to right. -/
def paths : Outline → List (List NodeId)
  | .node id [] => [[id]]
  | .node id (child :: children) => (paths child ++ pathsOfAll children).map (id :: ·)

def pathsOfAll : List Outline → List (List NodeId)
  | [] => []
  | outline :: outlines => paths outline ++ pathsOfAll outlines

end

theorem head?_of_mem_paths {outline : Outline} {path : List NodeId} (h : path ∈ outline.paths) :
    path.head? = some outline.id := by
  match outline with
  | .node id [] =>
    rw [paths, List.mem_singleton] at h
    rw [h]
    rfl
  | .node id (child :: children) =>
    rw [paths] at h
    obtain ⟨rest, -, rfl⟩ := List.mem_map.mp h
    rfl

mutual

/-- The same paths for a top that is reached through the nodes in `before`; each of them begins
there. -/
def pathsAfter (before : List NodeId) : Outline → List (List NodeId)
  | .node id [] => [before ++ [id]]
  | .node id (child :: children) =>
    pathsAfter (before ++ [id]) child ++ pathsAfterOfAll (before ++ [id]) children

def pathsAfterOfAll (before : List NodeId) : List Outline → List (List NodeId)
  | [] => []
  | outline :: outlines => pathsAfter before outline ++ pathsAfterOfAll before outlines

end

mutual

/-- What has been passed before is put in front of every path. -/
theorem pathsAfter_eq (before : List NodeId) :
    (outline : Outline) → outline.pathsAfter before = outline.paths.map (before ++ ·)
  | .node id [] => rfl
  | .node id (child :: children) => by
    have hmove : ∀ path : List NodeId, before ++ [id] ++ path = before ++ id :: path :=
      fun path => List.append_assoc before [id] path
    rw [pathsAfter, paths, pathsAfter_eq (before ++ [id]) child,
      pathsAfterOfAll_eq (before ++ [id]) children, ← List.map_append, List.map_map]
    simp only [hmove, Function.comp_def]

theorem pathsAfterOfAll_eq (before : List NodeId) :
    (outlines : List Outline) →
    pathsAfterOfAll before outlines = (pathsOfAll outlines).map (before ++ ·)
  | [] => rfl
  | outline :: outlines => by
    rw [pathsAfterOfAll, pathsOfAll, pathsAfter_eq before outline,
      pathsAfterOfAll_eq before outlines, List.map_append]

end

end Outline

namespace Store

/-- The outline of a node, as deep as `fuel` reaches. -/
def outlineWithin (store : Store) : (fuel : Nat) → NodeId → Outline
  | 0, id => .node id []
  | fuel + 1, id => .node id ((store.node id).children.map (store.outlineWithin fuel))

/-- The outline of a node. No path is longer than the number of nodes. -/
def outline (store : Store) (id : NodeId) : Outline :=
  store.outlineWithin store.nodes.size id

/-- The paths from a node to the leaves below it, each after the nodes in `before`. -/
def pathsAfter (store : Store) (before : List NodeId) (id : NodeId) : List (List NodeId) :=
  (store.outline id).pathsAfter before

def paths (store : Store) (id : NodeId) : List (List NodeId) :=
  store.pathsAfter [] id

theorem paths_eq (store : Store) (id : NodeId) : store.paths id = (store.outline id).paths := by
  rw [paths, pathsAfter, Outline.pathsAfter_eq]
  exact List.map_id _

/-- Visits the nodes on a stack and everything below them; the children of a visited node take its
place on the stack. -/
def visit (store : Store) : (fuel : Nat) → (stack : List NodeId) → List NodeId
  | 0, _ => []
  | _ + 1, [] => []
  | fuel + 1, id :: stack => id :: store.visit fuel ((store.node id).children ++ stack)

/-- A node and everything below it, every node before its children. Each node is met once. -/
def subtree (store : Store) (id : NodeId) : List NodeId :=
  store.visit store.nodes.size [id]

def leaves (store : Store) (tree : TreeId) : List NodeId :=
  (store.subtree (store.tree tree).root).filter fun id => (store.node id).isLeaf

end Store

end RiskScan

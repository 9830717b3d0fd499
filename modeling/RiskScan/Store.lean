import RiskScan.Confidence
import RiskScan.Severity
/-!
# Nodes and trees

Findings and the nodes that group them form reasoning trees. A node that belongs to a tree has a
slot there; slots are handed out in the order of registration and never change hands. Dependencies
are slots of the same tree, while children are nodes. A node need not belong to any tree, and may be
given children before it does.

All nodes and trees live in one `Store`, in the order of their creation. Operations take a store to
a store, also when they fail, so that what a failed operation has already done stays visible.
-/

namespace RiskScan

/-- A node, by its place in the order of creation. -/
abbrev NodeId := Nat

/-- A tree, by its place in the order of creation. -/
abbrev TreeId := Nat

/-- Where a node is registered. -/
structure Membership where
  tree : TreeId
  slot : Nat
  deriving DecidableEq, Repr

/-- A compound severity and the revision of the tree at which it was computed. -/
structure Memo where
  revision : Nat
  severity : Severity
  deriving DecidableEq, Repr

structure Node where
  kind : String
  description : String
  severity : Severity
  evidence : Option String
  confidence : Confidence
  reasoning : Option String
  mitigations : List String := []
  children : List NodeId := []
  hasParent : Bool := false
  membership : Option Membership := none
  /-- The slot of the parent, once both have been registered. -/
  parentSlot : Option Nat := none
  /-- The slots of the nodes that this one depends on, in ascending order. -/
  dependencies : List Nat := []
  memo : Option Memo := none
  deriving DecidableEq, Inhabited

structure Tree where
  root : NodeId
  /-- The registered nodes, by slot. -/
  nodes : Array NodeId := #[]
  /-- Grows with every change that can affect a compound severity. -/
  revision : Nat := 0
  deriving DecidableEq, Inhabited

structure Store where
  nodes : Array Node := #[]
  trees : Array Tree := #[]
  deriving DecidableEq, Inhabited

inductive TreeError where
  | ownChild
  | hasParent (kind : String)
  | isRoot (kind : String)
  | otherTree (kind : String)
  | alreadyInTree (kind : String)
  | unrelated
  deriving DecidableEq, Repr

def TreeError.message : TreeError → String
  | .ownChild => "A node cannot be its own child"
  | .hasParent kind => kind ++ " already has a parent"
  | .isRoot kind => kind ++ " is the root of a tree"
  | .otherTree kind => kind ++ " belongs to a different tree"
  | .alreadyInTree kind => kind ++ " is already part of a tree"
  | .unrelated => "Dependencies must link nodes of the same tree"

def TreeError.fault (error : TreeError) : Fault :=
  ⟨.value, error.message⟩

/-- An operation on a store that may fail; the store after it is known either way. -/
abbrev StoreM := EStateM TreeError Store

/-- The store after an operation, whether or not it failed. -/
def StoreM.after {α : Type} (operation : StoreM α) (store : Store) : Store :=
  match operation store with
  | .ok _ store => store
  | .error _ store => store

namespace Node

def isLeaf (node : Node) : Bool :=
  node.children.isEmpty

def tree? (node : Node) : Option TreeId :=
  node.membership.map Membership.tree

def slot? (node : Node) : Option Nat :=
  node.membership.map Membership.slot

/-- The remembered compound severity, if it was computed at this revision. -/
def memoAt? (node : Node) (revision : Nat) : Option Severity :=
  match node.memo with
  | some memo => if memo.revision = revision then some memo.severity else none
  | none => none

end Node

namespace Tree

def nodeAt (tree : Tree) (slot : Nat) : NodeId :=
  tree.nodes.getD slot tree.root

/-- The nodes in some slots; there are none if one of the slots is not in use. -/
def resolve? (tree : Tree) (slots : List Nat) : Option (List NodeId) :=
  slots.mapM fun slot => tree.nodes[slot]?

/-- The node at an index; negative indices count from the end. -/
def get? (tree : Tree) (index : Int) : Option NodeId :=
  if 0 ≤ index then tree.nodes[index.toNat]?
  else if index.natAbs ≤ tree.nodes.size then tree.nodes[tree.nodes.size - index.natAbs]?
  else none

end Tree

namespace Store

def empty : Store := {}

def node (store : Store) (id : NodeId) : Node :=
  store.nodes.getD id default

def tree (store : Store) (id : TreeId) : Tree :=
  store.trees.getD id default

def modifyNode (store : Store) (id : NodeId) (f : Node → Node) : Store :=
  { store with nodes := store.nodes.modify id f }

def modifyTree (store : Store) (id : TreeId) (f : Tree → Tree) : Store :=
  { store with trees := store.trees.modify id f }

@[simp] theorem size_modifyNode (store : Store) (id : NodeId) (f : Node → Node) :
    (store.modifyNode id f).nodes.size = store.nodes.size := by
  simp [modifyNode]

@[simp] theorem tree_modifyNode (store : Store) (id : NodeId) (f : Node → Node) (tree : TreeId) :
    (store.modifyNode id f).tree tree = store.tree tree := rfl

@[simp] theorem size_modifyTree (store : Store) (id : TreeId) (f : Tree → Tree) :
    (store.modifyTree id f).nodes.size = store.nodes.size := rfl

@[simp] theorem node_modifyTree (store : Store) (id : TreeId) (f : Tree → Tree) (node : NodeId) :
    (store.modifyTree id f).node node = store.node node := rfl

theorem node_of_size_le {store : Store} {id : NodeId} (h : store.nodes.size ≤ id) :
    store.node id = default := by
  simp [node, Array.getD, Nat.not_lt.mpr h]

/-- A change of one node is seen at that node only. -/
theorem node_modifyNode (store : Store) (id other : NodeId) (f : Node → Node) :
    (store.modifyNode id f).node other =
      if id = other ∧ id < store.nodes.size then f (store.node id) else store.node other := by
  by_cases hother : other < store.nodes.size
  · by_cases heq : id = other
    · subst heq
      simp [modifyNode, node, Array.getD, hother, Array.getElem_modify]
    · simp [modifyNode, node, Array.getD, hother, heq, Array.getElem_modify]
  · have hsize := Nat.le_of_not_lt hother
    rw [node_of_size_le hsize, node_of_size_le (by simpa using hsize), if_neg]
    rintro ⟨rfl, hid⟩
    exact hother hid

theorem tree_modifyTree (store : Store) (id other : TreeId) (f : Tree → Tree) :
    (store.modifyTree id f).tree other =
      if id = other ∧ id < store.trees.size then f (store.tree id) else store.tree other := by
  by_cases hother : other < store.trees.size
  · by_cases heq : id = other
    · subst heq
      simp [modifyTree, tree, Array.getD, hother, Array.getElem_modify]
    · simp [modifyTree, tree, Array.getD, hother, heq, Array.getElem_modify]
  · rw [if_neg]
    · simp [modifyTree, tree, Array.getD, hother]
    · rintro ⟨rfl, hid⟩
      exact hother hid

/-- The nodes that a node depends on, in the order of their slots, if all slots are in use. -/
def dependencies? (store : Store) (id : NodeId) : Option (List NodeId) :=
  let node := store.node id
  match node.tree? with
  | none => some []
  | some tree => (store.tree tree).resolve? node.dependencies

/-- The nodes that a node depends on, in the order of their slots. -/
def dependenciesOf (store : Store) (id : NodeId) : List NodeId :=
  (store.dependencies? id).getD []

end Store

end RiskScan

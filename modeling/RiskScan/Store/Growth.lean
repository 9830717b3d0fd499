import RiskScan.Store
/-!
# Growing trees

A node is created detached. It joins a tree as the tree's root, or as a descendant of a node that
already belongs to one; its own descendants join with it, each parent before its children. Joining
stops at the first descendant that belongs to another tree, and what joined before stays.

A dependency or a severity that changes moves the revision of the tree on.
-/

namespace RiskScan

inductive NodeError where
  | severity (error : SeverityError)
  | confidence (error : ConfidenceError)
  deriving DecidableEq, Repr

def NodeError.fault : NodeError → Fault
  | .severity error => error.fault
  | .confidence error => error.fault

/-- What a node is made from. Severity and confidence are still to be checked. -/
structure Draft where
  kind : String
  description : String
  severity : Value := .text Severity.info.label
  evidence : Option String := none
  confidence : Value := .float 0.0
  reasoning : Option String := none

def Draft.node (draft : Draft) : Except NodeError Node := do
  let severity ← (Severity.parse draft.severity).mapError .severity
  let confidence ← (Confidence.ofValue draft.confidence).mapError .confidence
  return {
    kind := draft.kind
    description := draft.description
    severity := severity
    evidence := draft.evidence
    confidence := confidence
    reasoning := draft.reasoning }

/-- Inserts a slot into an ascending list unless it is there already. -/
def insertSlot (slot : Nat) : List Nat → List Nat
  | [] => [slot]
  | other :: others =>
    if slot < other then slot :: other :: others
    else if slot = other then other :: others
    else other :: insertSlot slot others

theorem mem_insertSlot {slot candidate : Nat} {slots : List Nat} :
    candidate ∈ insertSlot slot slots ↔ candidate = slot ∨ candidate ∈ slots := by
  induction slots with
  | nil => simp [insertSlot]
  | cons other others ih =>
    unfold insertSlot
    split
    · simp
    · split
      · simp_all
      · simp only [List.mem_cons, ih]
        constructor <;> intro h <;> rcases h with h | h | h <;> simp [h]

namespace Store

def create (store : Store) (node : Node) : NodeId × Store :=
  (store.nodes.size, { store with nodes := store.nodes.push node })

theorem node_create (store : Store) (node : Node) (id : NodeId) :
    (store.create node).2.node id = if id = store.nodes.size then node else store.node id := by
  simp only [create, Store.node, Array.getD, Array.size_push, Array.getInternal_eq_getElem,
    Array.getElem_push]
  split <;> split <;> grind

/-- Gives a detached node the next slot of a tree. -/
def enrol (store : Store) (tree : TreeId) (id : NodeId) : Store :=
  let slot := (store.tree tree).nodes.size
  (store.modifyNode id fun node => { node with membership := some ⟨tree, slot⟩ }).modifyTree tree
    fun tree => { tree with nodes := tree.nodes.push id }

@[simp] theorem size_enrol (store : Store) (tree : TreeId) (id : NodeId) :
    (store.enrol tree id).nodes.size = store.nodes.size := by
  simp [enrol]

def setParentSlot (store : Store) (id : NodeId) (slot : Nat) : Store :=
  store.modifyNode id fun node => { node with parentSlot := some slot }

@[simp] theorem size_setParentSlot (store : Store) (id : NodeId) (slot : Nat) :
    (store.setParentSlot id slot).nodes.size = store.nodes.size := by
  simp [setParentSlot]

/-- Registers the children of the node in `slot`, and tells each of them its parent. -/
def adopt (registerOne : NodeId → StoreM Unit) (slot : Nat) : List NodeId → StoreM Unit
  | [], store => .ok () store
  | child :: children, store =>
    match registerOne child store with
    | .error error store => .error error store
    | .ok () store => adopt registerOne slot children (store.setParentSlot child slot)

/-- Registers a node and its descendants, as deep as `fuel` reaches. -/
def registerWithin (tree : TreeId) : (fuel : Nat) → NodeId → StoreM Unit
  | 0, _, store => .ok () store
  | fuel + 1, id, store =>
    let node := store.node id
    match node.tree? with
    | some owner => if owner = tree then .ok () store else .error (.otherTree node.kind) store
    | none =>
      let slot := (store.tree tree).nodes.size
      adopt (registerWithin tree fuel) slot node.children (store.enrol tree id)

/-- Adopting creates no node where registering one child creates none. -/
theorem size_after_adopt {registerOne : NodeId → StoreM Unit}
    (hregister : ∀ id store, ((registerOne id).after store).nodes.size = store.nodes.size)
    (slot : Nat) (children : List NodeId) (store : Store) :
    ((adopt registerOne slot children).after store).nodes.size = store.nodes.size := by
  induction children generalizing store with
  | nil => rfl
  | cons child children ih =>
    have hchild := hregister child store
    unfold StoreM.after at hchild ih ⊢
    unfold adopt
    cases hresult : registerOne child store with
    | error error after =>
      rw [hresult] at hchild
      exact hchild
    | ok _ after =>
      rw [hresult] at hchild
      calc _ = (after.setParentSlot child slot).nodes.size := ih _
        _ = after.nodes.size := size_setParentSlot after child slot
        _ = store.nodes.size := hchild

theorem size_after_registerWithin (tree : TreeId) (fuel : Nat) (id : NodeId) (store : Store) :
    ((registerWithin tree fuel id).after store).nodes.size = store.nodes.size := by
  induction fuel generalizing id store with
  | zero => rfl
  | succ fuel ih =>
    unfold StoreM.after registerWithin
    dsimp only
    cases (store.node id).tree? with
    | some owner => by_cases heq : owner = tree <;> simp [heq]
    | none =>
      have hadopt := size_after_adopt ih (store.tree tree).nodes.size (store.node id).children
        (store.enrol tree id)
      exact hadopt.trans (size_enrol store tree id)

/-- Registers a node and its descendants. Every step down registers a node that was detached, so the
number of nodes bounds the depth. -/
def register (tree : TreeId) (id : NodeId) : StoreM Unit := fun store =>
  registerWithin tree (store.nodes.size + 1) id store

def plant (root : NodeId) : StoreM TreeId := fun store =>
  let node := store.node root
  if node.hasParent || node.membership.isSome then .error (.alreadyInTree node.kind) store
  else
    let tree := store.trees.size
    match register tree root { store with trees := store.trees.push { root := root } } with
    | .ok () store => .ok tree store
    | .error error store => .error error store

/-- Why a node cannot become a child of another, if it cannot. -/
def childError? (store : Store) (parent child : NodeId) : Option TreeError :=
  let node := store.node child
  if child = parent then some .ownChild
  else if node.hasParent then some (.hasParent node.kind)
  else
    match node.tree? with
    | none => none
    | some tree =>
      if (store.tree tree).root = child then some (.isRoot node.kind)
      else if (store.node parent).tree? ≠ some tree then some (.otherTree node.kind)
      else none

/-- Appends a child, whether or not its parent belongs to a tree yet. -/
def addChild (parent child : NodeId) : StoreM Unit := fun store =>
  match store.childError? parent child with
  | some error => .error error store
  | none =>
    let linked := (store.modifyNode parent fun node =>
      { node with children := node.children ++ [child] }).modifyNode child fun node =>
        { node with hasParent := true }
    match (store.node parent).membership with
    | none => .ok () linked
    | some home =>
      match register home.tree child linked with
      | .error error store => .error error store
      | .ok () store => .ok () (store.setParentSlot child home.slot)

def touch (store : Store) (tree : TreeId) : Store :=
  store.modifyTree tree fun tree => { tree with revision := tree.revision + 1 }

/-- Declares that the severity of a node is compounded by another node of its tree. -/
def addDependency (id target : NodeId) : StoreM Unit := fun store =>
  match (store.node id).membership, (store.node target).membership with
  | some home, some other =>
    if home.tree = other.tree then
      .ok () ((store.modifyNode id fun node =>
        { node with dependencies := insertSlot other.slot node.dependencies }).touch home.tree)
    else .error .unrelated store
  | _, _ => .error .unrelated store

def setSeverity (store : Store) (id : NodeId) (severity : Severity) : Store :=
  let changed := store.modifyNode id fun node => { node with severity := severity }
  match (store.node id).tree? with
  | none => changed
  | some tree => changed.touch tree

def setConfidence (store : Store) (id : NodeId) (confidence : Confidence) : Store :=
  store.modifyNode id fun node => { node with confidence := confidence }

def bumpConfidence (store : Store) (id : NodeId) (delta : Value) :
    Except ConfidenceError Store :=
  ((store.node id).confidence.add delta).map (store.setConfidence id)

def addMitigation (store : Store) (id : NodeId) (mitigation : String) : Store :=
  store.modifyNode id fun node => { node with mitigations := node.mitigations ++ [mitigation] }

def setReasoning (store : Store) (id : NodeId) (reasoning : Option String) : Store :=
  store.modifyNode id fun node => { node with reasoning := reasoning }

end Store

end RiskScan

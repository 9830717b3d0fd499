import RiskScan.Store.Compound
import RiskScan.Store.Growth
/-!
# Operations

What callers can do to nodes and trees, as values. An operation names nodes and trees that have been
made before; whether it fails or not, the store after it is known. A store is reachable if
operations lead to it from the empty store.

Trees normally grow from their roots and from the parents that children are given to. Registering a
node on its own is possible too, and loosens what can be said about a store.
-/

namespace RiskScan

inductive Operation where
  | create (draft : Draft)
  | plant (root : NodeId)
  | register (tree : TreeId) (id : NodeId)
  | addChild (parent child : NodeId)
  | addDependency (id target : NodeId)
  | touch (tree : TreeId)
  | setSeverity (id : NodeId) (severity : Value)
  | setConfidence (id : NodeId) (confidence : Value)
  | bumpConfidence (id : NodeId) (delta : Value)
  | addMitigation (id : NodeId) (mitigation : String)
  | setReasoning (id : NodeId) (reasoning : Option String)
  | compound (id : NodeId)

inductive OperationError where
  | tree (error : TreeError)
  | node (error : NodeError)
  deriving DecidableEq, Repr

def Store.knows (store : Store) : Operation → Bool
  | .create _ => true
  | .plant id
  | .setSeverity id _
  | .setConfidence id _
  | .bumpConfidence id _
  | .addMitigation id _
  | .setReasoning id _
  | .compound id => id < store.nodes.size
  | .register tree id => tree < store.trees.size && id < store.nodes.size
  | .addChild parent child => parent < store.nodes.size && child < store.nodes.size
  | .addDependency id target => id < store.nodes.size && target < store.nodes.size
  | .touch tree => tree < store.trees.size

namespace Operation

def ofTree {α : Type} (operation : StoreM α) : EStateM OperationError Store Unit := fun store =>
  match operation store with
  | .ok _ store => .ok () store
  | .error error store => .error (.tree error) store

/-- An operation that leaves the store as it was when it fails. -/
def ofNode (operation : Store → Except NodeError Store) : EStateM OperationError Store Unit :=
  fun store =>
    match operation store with
    | .ok store => .ok () store
    | .error error => .error (.node error) store

def perform : Operation → EStateM OperationError Store Unit
  | .create draft => ofNode fun store => draft.node.map fun node => (store.create node).2
  | .plant root => ofTree (Store.plant root)
  | .register tree id => ofTree (Store.register tree id)
  | .addChild parent child => ofTree (Store.addChild parent child)
  | .addDependency id target => ofTree (Store.addDependency id target)
  | .touch tree => fun store => .ok () (store.touch tree)
  | .setSeverity id severity => ofNode fun store =>
    ((Severity.parse severity).map (store.setSeverity id)).mapError .severity
  | .setConfidence id confidence => ofNode fun store =>
    ((Confidence.ofValue confidence).map (store.setConfidence id)).mapError .confidence
  | .bumpConfidence id delta => ofNode fun store =>
    (store.bumpConfidence id delta).mapError .confidence
  | .addMitigation id mitigation => fun store => .ok () (store.addMitigation id mitigation)
  | .setReasoning id reasoning => fun store => .ok () (store.setReasoning id reasoning)
  | .compound id => fun store => .ok () (Store.compound id store).2

/-- The store after an operation, whether or not it failed. -/
def after (operation : Operation) (store : Store) : Store :=
  match operation.perform store with
  | .ok _ store => store
  | .error _ store => store

def registersAlone : Operation → Bool
  | .register _ _ => true
  | _ => false

end Operation

namespace Store

/-- The stores that allowed operations lead to. -/
inductive Reaches (allowed : Operation → Bool) (start : Store) : Store → Prop where
  | refl : Reaches allowed start start
  | step {store : Store} {operation : Operation} (before : Reaches allowed start store)
      (isAllowed : allowed operation) (known : store.knows operation) :
      Reaches allowed start (operation.after store)

/-- A store that any operations lead to from the empty one. -/
abbrev Reachable (store : Store) : Prop :=
  Reaches (fun _ => true) empty store

/-- A store that is reachable without registering a node on its own. -/
abbrev OrdinarilyReachable (store : Store) : Prop :=
  Reaches (fun operation => !operation.registersAlone) empty store

def run (operations : List Operation) (store : Store) : Store :=
  operations.foldl (fun store operation => operation.after store) store

/-- Whether some operations are allowed and name only what has been made when their turn comes. -/
def admits (allowed : Operation → Bool) (store : Store) : List Operation → Bool
  | [] => true
  | operation :: operations =>
    allowed operation && store.knows operation && (operation.after store).admits allowed operations

/-- The store after some admitted operations is one that they lead to. -/
theorem reaches_run {allowed : Operation → Bool} {start store : Store}
    (hreaches : Reaches allowed start store) (operations : List Operation)
    (hadmits : store.admits allowed operations) :
    Reaches allowed start (store.run operations) := by
  induction operations generalizing store with
  | nil => exact hreaches
  | cons operation operations ih =>
    simp only [admits, Bool.and_eq_true] at hadmits
    obtain ⟨⟨hallowed, hknown⟩, hrest⟩ := hadmits
    exact ih (hreaches.step hallowed hknown) hrest

end Store

end RiskScan

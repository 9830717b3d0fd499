import RiskScan.Store
/-!
# Compound severity

The severity of a finding is raised by what it depends on: half the weight of its strongest
dependency, itself compounded, is added to its own weight. A dependency that is already being
evaluated counts with its own severity, so cycles end. An answer to a question asked from outside is
remembered until the revision of the tree moves on, and a remembered answer is used wherever the
node is met.
-/

namespace RiskScan

def heaviest (severities : List Severity) : Nat :=
  (severities.map Severity.weight).foldl max 0

namespace Store

/-- The compound severity of a node while the nodes in the slots `open_` are being evaluated.
Nothing comes of it if a slot is not in use, or if `fuel` does not reach. -/
def compoundWithin (store : Store) : (fuel : Nat) → (open_ : List Nat) → NodeId → Option Severity
  | 0, _, _ => none
  | fuel + 1, open_, id =>
    let node := store.node id
    if node.dependencies.isEmpty then some node.severity
    else
      match node.membership with
      | none => none
      | some home =>
        let tree := store.tree home.tree
        match node.memoAt? tree.revision with
        | some severity => some severity
        | none =>
          let nowOpen := home.slot :: open_
          let severities := node.dependencies.mapM fun slot => do
            let target ← tree.nodes[slot]?
            if slot ∈ nowOpen then some (store.node target).severity
            else store.compoundWithin fuel nowOpen target
          severities.map fun severities => node.severity.raised (heaviest severities)

/-- The compound severity of a node. Each step down opens another slot of the tree, so the number of
slots bounds the depth. -/
def compound? (store : Store) (id : NodeId) : Option Severity :=
  let slots := match (store.node id).membership with
    | none => 0
    | some home => (store.tree home.tree).nodes.size
  store.compoundWithin (slots + 1) [] id

/-- Remembers a compound severity at the present revision. -/
def remember (store : Store) (id : NodeId) (severity : Severity) : Store :=
  let node := store.node id
  match node.membership with
  | none => store
  | some home =>
    if node.dependencies.isEmpty then store
    else store.modifyNode id fun node =>
      { node with memo := some ⟨(store.tree home.tree).revision, severity⟩ }

/-- Remembering an answer changes nothing but what is remembered. -/
theorem node_remember (store : Store) (id other : NodeId) (severity : Severity) :
    ∃ memo, (store.remember id severity).node other = { store.node other with memo := memo } := by
  unfold remember
  dsimp only
  split
  · exact ⟨_, rfl⟩
  · split
    · exact ⟨_, rfl⟩
    · rw [node_modifyNode]
      split
      · rename_i hsame
        obtain ⟨rfl, -⟩ := hsame
        exact ⟨_, rfl⟩
      · exact ⟨_, rfl⟩

/-- What a node answers when it is asked for its compound severity. -/
def compoundNow (store : Store) (id : NodeId) : Severity :=
  (store.compound? id).getD (store.node id).severity

/-- Asks a node for its compound severity; the answer is remembered. -/
def compound (id : NodeId) : StateM Store Severity := fun store =>
  let severity := store.compoundNow id
  (severity, store.remember id severity)

end Store

end RiskScan

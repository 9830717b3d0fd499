import RiskScan.Proofs.Store.Arena
/-!
# Kinds

What kind of node a node is, is said when it is made. No operation changes it later, not even one
that fails. That every operation leaves alone what it does not mean to change is shown once for all
such parts of a node.
-/

namespace RiskScan

def Operation.adjustsConfidence : Operation → Bool
  | setConfidence _ _ | bumpConfidence _ _ => true
  | _ => false

namespace Store

variable {store before after : Store} {id : NodeId}

/-- A part of a node that has nothing to do with what operations change, confidences apart. -/
structure Lasting {β : Type} (part : Node → β) : Prop where
  membership (node : Node) (home : Option Membership) : part { node with membership := home } =
    part node
  parentSlot (node : Node) (slot : Option Nat) : part { node with parentSlot := slot } = part node
  children (node : Node) (children : List NodeId) : part { node with children := children } =
    part node
  hasParent (node : Node) (flag : Bool) : part { node with hasParent := flag } = part node
  dependencies (node : Node) (slots : List Nat) : part { node with dependencies := slots } =
    part node
  severity (node : Node) (severity : Severity) : part { node with severity := severity } = part node
  mitigations (node : Node) (texts : List String) : part { node with mitigations := texts } =
    part node
  reasoning (node : Node) (text : Option String) : part { node with reasoning := text } = part node
  memo (node : Node) (memo : Option Memo) : part { node with memo := memo } = part node

namespace Lasting

variable {β : Type} {part : Node → β}

theorem register (h : Lasting part) (hsound : ArenaSound store) (tree : TreeId)
    (hid : id < store.nodes.size) (other : NodeId) :
    part (((Store.register tree id).after store).node other) = part (store.node other) :=
  register_keeps tree id (P := fun now => part (now.node other) = part (store.node other))
    (fun {now} candidate => (enrol_keeps part h.membership now tree candidate other).trans)
    (fun {now} child slot => (setParentSlot_keeps part h.parentSlot now child other slot).trans)
    hsound.child_lt rfl hid

theorem plant (h : Lasting part) (hsound : ArenaSound store) (hid : id < store.nodes.size)
    (other : NodeId) :
    part (((Store.plant id).after store).node other) = part (store.node other) := by
  rw [after_plant]
  split
  · rfl
  · exact h.register (hsound.begin id) store.trees.size hid other

theorem addChild (h : Lasting part) {parent child : NodeId} (hsound : ArenaSound store)
    (hparent : parent < store.nodes.size) (hchild : child < store.nodes.size) (other : NodeId) :
    part (((Store.addChild parent child).after store).node other) = part (store.node other) := by
  have hlink := link_keeps part h.children h.hasParent store parent child
  rw [after_addChild]
  split
  · rfl
  · split
    · exact hlink other
    · rename_i home _
      have hlinked : child < (store.link parent child).nodes.size := by simpa using hchild
      have hregister := h.register (hsound.link hparent hchild) home.tree hlinked
      unfold StoreM.after at hregister
      split <;> rename_i hresult <;> rw [hresult] at hregister
      · exact (hregister other).trans (hlink other)
      · rw [setParentSlot_keeps part h.parentSlot]
        exact (hregister other).trans (hlink other)

/-- An operation keeps what is said of a node that is there already, unless it adjusts a
confidence. -/
theorem part_after (h : Lasting part) (hsound : ArenaSound store) {operation : Operation}
    (hkeeps : operation.adjustsConfidence = false) (hknown : store.knows operation)
    (hid : id < store.nodes.size) : part ((operation.after store).node id) =
      part (store.node id) := by
  cases operation with
  | create draft =>
    rcases Operation.after_create draft store with hfail | ⟨node, -, hafter⟩
    · rw [hfail]
    · rw [hafter, node_create, if_neg (Nat.ne_of_lt hid)]
  | plant root =>
    rw [Operation.after_plant]
    exact h.plant hsound (by simpa [knows] using hknown) id
  | register tree root =>
    rw [Operation.after_register]
    simp only [knows, Bool.and_eq_true, decide_eq_true_eq] at hknown
    exact h.register hsound tree hknown.2 id
  | addChild parent child =>
    rw [Operation.after_addChild]
    simp only [knows, Bool.and_eq_true, decide_eq_true_eq] at hknown
    exact h.addChild hsound hknown.1 hknown.2 id
  | addDependency other target =>
    rw [Operation.after_addDependency]
    rcases after_addDependency store other target with hfail | ⟨home, place, -, -, -, hafter⟩
    · rw [hfail]
    · rw [hafter]
      exact depend_keeps part h.dependencies store other id place.slot home.tree
  | touch tree => rfl
  | setSeverity other value =>
    rcases Operation.after_setSeverity other value store with hfail | ⟨severity, hafter⟩
    · rw [hfail]
    · rw [hafter]
      exact setSeverity_keeps part h.severity store other id severity
  | setConfidence | bumpConfidence => cases hkeeps
  | addMitigation other mitigation =>
    exact modifyNode_keeps part (fun node => h.mitigations node (node.mitigations ++ [mitigation]))
      store other id
  | setReasoning other reasoning =>
    exact modifyNode_keeps part (fun node => h.reasoning node reasoning) store other id
  | compound other =>
    rw [Operation.after_compound]
    exact remember_keeps part h.memo store other id _

end Lasting

theorem lasting_kind : Lasting Node.kind := by
  constructor <;> exact fun _ _ => rfl

/-- What one operation keeps. -/
theorem kind_after (hsound : ArenaSound store) {operation : Operation}
    (hknown : store.knows operation) (hid : id < store.nodes.size) :
    ((operation.after store).node id).kind = (store.node id).kind := by
  have hset (confidence : Confidence) (other : NodeId) :
      ((store.setConfidence other confidence).node id).kind = (store.node id).kind :=
    modifyNode_keeps Node.kind (f := fun node => { node with confidence }) (fun _ => rfl)
      store other id
  cases operation with
  | setConfidence other value =>
    rcases Operation.after_setConfidence other value store with hfail | ⟨confidence, hafter⟩
    · rw [hfail]
    · rw [hafter, hset]
  | bumpConfidence other delta =>
    rcases Operation.after_bumpConfidence other delta store with hfail | ⟨confidence, hafter⟩
    · rw [hfail]
    · rw [hafter, hset]
  | _ => exact lasting_kind.part_after hsound rfl hknown hid

/-- What any operations keep. -/
theorem Reaches.kind {allowed : Operation → Bool} (h : Reaches allowed before after)
    (hsound : ArenaSound before) (hid : id < before.nodes.size) :
    (after.node id).kind = (before.node id).kind := by
  induction h with
  | refl => rfl
  | step hbefore _ hknown ih =>
    obtain ⟨hmiddle, hextends⟩ := hsound.reaches hbefore
    rw [kind_after hmiddle hknown (Nat.lt_of_lt_of_le hid hextends.size_le), ih]

end Store

end RiskScan

import RiskScan.Proofs.Store.Arena
/-!
# Readings

A compound severity is read off severities, dependencies, revisions and what is remembered. Here it
is said how far an operation can disturb these. Most operations leave them alone, registration among
them. The two that do not are a change of severity and a new dependency; within a tree, both move
the revision of the tree on.
-/

namespace RiskScan.Store

/-- Two stores in which the same compound severities would be read off the nodes of one tree. -/
structure SameReadings (before after : Store) : Prop where
  severity (id : NodeId) : (after.node id).severity = (before.node id).severity
  dependencies (id : NodeId) : (after.node id).dependencies = (before.node id).dependencies
  memo (id : NodeId) : (after.node id).memo = (before.node id).memo
  revision (tree : TreeId) : (after.tree tree).revision = (before.tree tree).revision

/-- No revision goes back, nothing is remembered or forgotten, and a node of a tree whose revision
has stayed has the severity and the dependencies that it had. -/
structure Advances (before after : Store) : Prop where
  revision_le (tree : TreeId) : (before.tree tree).revision ≤ (after.tree tree).revision
  memo (id : NodeId) : (after.node id).memo = (before.node id).memo
  severity {id : NodeId} {home : Membership} : (before.node id).membership = some home →
    (after.tree home.tree).revision = (before.tree home.tree).revision →
    (after.node id).severity = (before.node id).severity
  dependencies {id : NodeId} {home : Membership} : (before.node id).membership = some home →
    (after.tree home.tree).revision = (before.tree home.tree).revision →
    (after.node id).dependencies = (before.node id).dependencies

theorem revision_touch (store : Store) {tree : TreeId} (other : TreeId)
    (htree : tree < store.trees.size) :
    ((store.touch tree).tree other).revision =
      if other = tree then (store.tree tree).revision + 1 else (store.tree other).revision := by
  rw [touch, tree_modifyTree]
  by_cases hother : other = tree
  · subst hother
    simp [htree]
  · simp [hother, Ne.symm hother]

theorem revision_le_touch (store : Store) (tree other : TreeId) :
    (store.tree other).revision ≤ ((store.touch tree).tree other).revision := by
  rw [touch, tree_modifyTree]
  split
  · rename_i hsame
    rw [hsame.1]
    exact Nat.le_succ _
  · exact Nat.le_refl _

theorem revision_lt_touch (store : Store) {tree : TreeId} (htree : tree < store.trees.size) :
    (store.tree tree).revision < ((store.touch tree).tree tree).revision := by
  rw [revision_touch store tree htree, if_pos rfl]
  exact Nat.lt_succ_self _

namespace SameReadings

theorem refl (store : Store) : SameReadings store store :=
  ⟨fun _ => rfl, fun _ => rfl, fun _ => rfl, fun _ => rfl⟩

theorem trans {first second third : Store} (hleft : SameReadings first second)
    (hright : SameReadings second third) : SameReadings first third where
  severity id := (hright.severity id).trans (hleft.severity id)
  dependencies id := (hright.dependencies id).trans (hleft.dependencies id)
  memo id := (hright.memo id).trans (hleft.memo id)
  revision tree := (hright.revision tree).trans (hleft.revision tree)

theorem modifyNode (store : Store) (id : NodeId) {f : Node → Node}
    (hseverity : ∀ node, (f node).severity = node.severity)
    (hdependencies : ∀ node, (f node).dependencies = node.dependencies)
    (hmemo : ∀ node, (f node).memo = node.memo) :
    SameReadings store (store.modifyNode id f) where
  severity := modifyNode_keeps Node.severity hseverity store id
  dependencies := modifyNode_keeps Node.dependencies hdependencies store id
  memo := modifyNode_keeps Node.memo hmemo store id
  revision _ := rfl

theorem setParentSlot (store : Store) (id : NodeId) (slot : Nat) :
    SameReadings store (store.setParentSlot id slot) :=
  modifyNode store id (fun _ => rfl) (fun _ => rfl) (fun _ => rfl)

theorem link (store : Store) (parent child : NodeId) :
    SameReadings store (store.link parent child) where
  severity := link_keeps Node.severity (fun _ _ => rfl) (fun _ _ => rfl) store parent child
  dependencies := link_keeps Node.dependencies (fun _ _ => rfl) (fun _ _ => rfl) store parent child
  memo := link_keeps Node.memo (fun _ _ => rfl) (fun _ _ => rfl) store parent child
  revision _ := rfl

theorem begin (store : Store) (root : NodeId) : SameReadings store (store.begin root) where
  severity _ := rfl
  dependencies _ := rfl
  memo _ := rfl
  revision tree := by
    rw [tree_begin]
    split
    · rename_i hnew
      rw [tree_of_size_le (Nat.le_of_eq hnew.symm)]
      rfl
    · rfl

theorem enrol (store : Store) (tree : TreeId) (id : NodeId) :
    SameReadings store (store.enrol tree id) where
  severity := enrol_keeps Node.severity (fun _ _ => rfl) store tree id
  dependencies := enrol_keeps Node.dependencies (fun _ _ => rfl) store tree id
  memo := enrol_keeps Node.memo (fun _ _ => rfl) store tree id
  revision other := by
    rw [tree_enrol]
    split
    · rename_i hsame
      rw [hsame.1]
    · rfl

theorem register {store : Store} (hsound : ArenaSound store) (tree : TreeId) (id : NodeId)
    (hid : id < store.nodes.size) : SameReadings store ((Store.register tree id).after store) :=
  register_keeps tree id (P := SameReadings store)
    (fun {now} candidate hsame => hsame.trans (enrol now tree candidate))
    (fun {now} child slot hsame => hsame.trans (setParentSlot now child slot))
    hsound.child_lt (refl store) hid

theorem plant {store : Store} (hsound : ArenaSound store) {root : NodeId}
    (hroot : root < store.nodes.size) : SameReadings store ((Store.plant root).after store) := by
  rw [after_plant]
  split
  · exact refl store
  · exact (begin store root).trans (register (hsound.begin root) store.trees.size root hroot)

theorem addChild {store : Store} (hsound : ArenaSound store) {parent child : NodeId}
    (hparent : parent < store.nodes.size) (hchild : child < store.nodes.size) :
    SameReadings store ((Store.addChild parent child).after store) := by
  rw [after_addChild]
  split
  · exact refl store
  · split
    · exact link store parent child
    · rename_i home _
      have hregister :=
        register (hsound.link hparent hchild) home.tree child (by simpa using hchild)
      unfold StoreM.after at hregister
      split <;> rename_i hresult <;> rw [hresult] at hregister
      · exact (link store parent child).trans hregister
      · exact ((link store parent child).trans hregister).trans (setParentSlot _ child home.slot)

end SameReadings

namespace Advances

theorem of_sameReadings {before after : Store} (h : SameReadings before after) :
    Advances before after where
  revision_le tree := Nat.le_of_eq (h.revision tree).symm
  memo := h.memo
  severity _ _ := h.severity _
  dependencies _ _ := h.dependencies _

theorem create (store : Store) {node : Node} (hfresh : node.Fresh) :
    Advances store (store.create node).2 where
  revision_le _ := Nat.le_refl _
  memo := create_keeps Node.memo hfresh.memo
  severity hid _ := by rw [node_create, if_neg (Nat.ne_of_lt (lt_size_of_membership hid))]
  dependencies hid _ := by rw [node_create, if_neg (Nat.ne_of_lt (lt_size_of_membership hid))]

theorem touch (store : Store) (tree : TreeId) : Advances store (store.touch tree) where
  revision_le := revision_le_touch store tree
  memo _ := rfl
  severity _ _ := rfl
  dependencies _ _ := rfl

/-- A change of one node of a tree counts if the revision of the tree moves on with it. -/
theorem touch_modifyNode {store : Store} (hsound : ArenaSound store) {id : NodeId}
    {home : Membership} (hid : (store.node id).membership = some home) {f : Node → Node}
    (hmemo : ∀ node, (f node).memo = node.memo) :
    Advances store ((store.modifyNode id f).touch home.tree) := by
  have htree : home.tree < (store.modifyNode id f).trees.size :=
    hsound.tree_lt hid
  have hsame : ∀ {other : NodeId} {place : Membership},
      (store.node other).membership = some place →
      (((store.modifyNode id f).touch home.tree).tree place.tree).revision =
        (store.tree place.tree).revision →
      ((store.modifyNode id f).touch home.tree).node other = store.node other := by
    intro other place hother hrevision
    rw [node_touch, node_modifyNode, if_neg]
    rintro ⟨rfl, -⟩
    rw [hid] at hother
    cases hother
    rw [revision_touch _ _ htree, if_pos rfl] at hrevision
    exact Nat.succ_ne_self _ hrevision
  exact {
    revision_le := revision_le_touch (store.modifyNode id f) home.tree
    memo := modifyNode_keeps Node.memo hmemo store id
    severity := fun hother hrevision => by rw [hsame hother hrevision]
    dependencies := fun hother hrevision => by rw [hsame hother hrevision] }

theorem modifyNode_of_detached {store : Store} {id : NodeId}
    (hid : (store.node id).membership = none) {f : Node → Node}
    (hmemo : ∀ node, (f node).memo = node.memo) : Advances store (store.modifyNode id f) := by
  have hsame : ∀ {other : NodeId} {place : Membership},
      (store.node other).membership = some place →
      (store.modifyNode id f).node other = store.node other := by
    intro other place hother
    rw [node_modifyNode, if_neg]
    rintro ⟨rfl, -⟩
    rw [hid] at hother
    cases hother
  exact {
    revision_le := fun _ => Nat.le_refl _
    memo := modifyNode_keeps Node.memo hmemo store id
    severity := fun hother _ => by rw [hsame hother]
    dependencies := fun hother _ => by rw [hsame hother] }

theorem setSeverity {store : Store} (hsound : ArenaSound store) (id : NodeId)
    (severity : Severity) :
    Advances store (store.setSeverity id severity) := by
  rw [setSeverity_eq, Node.tree?]
  cases hid : (store.node id).membership with
  | some home => exact touch_modifyNode hsound hid fun _ => rfl
  | none => exact modifyNode_of_detached hid fun _ => rfl

/-- Every operation that computes no compound severity only advances. -/
theorem step {store : Store} (hsound : ArenaSound store) {operation : Operation}
    (hknown : store.knows operation) (hcompound : ∀ id, operation ≠ .compound id) :
    Advances store (operation.after store) := by
  have hrefl : Advances store store := of_sameReadings (.refl store)
  cases operation with
  | create draft =>
    rcases Operation.after_create draft store with hfail | ⟨node, hnode, hafter⟩
    · rwa [hfail]
    · rw [hafter]
      exact create store (draft.fresh_of_node hnode)
  | plant root =>
    rw [Operation.after_plant]
    exact of_sameReadings (.plant hsound (by simpa [knows] using hknown))
  | register tree id =>
    rw [Operation.after_register]
    simp only [knows, Bool.and_eq_true, decide_eq_true_eq] at hknown
    exact of_sameReadings (.register hsound tree id hknown.2)
  | addChild parent child =>
    rw [Operation.after_addChild]
    simp only [knows, Bool.and_eq_true, decide_eq_true_eq] at hknown
    exact of_sameReadings (.addChild hsound hknown.1 hknown.2)
  | addDependency id target =>
    rw [Operation.after_addDependency]
    rcases Store.after_addDependency store id target with hfail | ⟨home, other, hid, -, -, hafter⟩
    · rwa [hfail]
    · rw [hafter]
      exact touch_modifyNode hsound hid fun _ => rfl
  | touch tree => exact touch store tree
  | setSeverity id value =>
    rcases Operation.after_setSeverity id value store with hfail | ⟨severity, hafter⟩
    · rwa [hfail]
    · rw [hafter]
      exact setSeverity hsound id severity
  | setConfidence id value =>
    rcases Operation.after_setConfidence id value store with hfail | ⟨confidence, hafter⟩
    · rwa [hfail]
    · rw [hafter]
      exact of_sameReadings (.modifyNode store id (fun _ => rfl) (fun _ => rfl) (fun _ => rfl))
  | bumpConfidence id delta =>
    rcases Operation.after_bumpConfidence id delta store with hfail | ⟨confidence, hafter⟩
    · rwa [hfail]
    · rw [hafter]
      exact of_sameReadings (.modifyNode store id (fun _ => rfl) (fun _ => rfl) (fun _ => rfl))
  | addMitigation id mitigation =>
    exact of_sameReadings (.modifyNode store id (fun _ => rfl) (fun _ => rfl) (fun _ => rfl))
  | setReasoning id reasoning =>
    exact of_sameReadings (.modifyNode store id (fun _ => rfl) (fun _ => rfl) (fun _ => rfl))
  | compound id => exact absurd rfl (hcompound id)

end Advances

end RiskScan.Store

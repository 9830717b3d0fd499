import RiskScan.Analyzer
import RiskScan.Proofs.Compound.Marks
import RiskScan.Proofs.Store.StrictTrees
/-!
# Attaching nodes

An analysis makes new nodes and hangs each of them under a node that is registered. This never
fails: the new node takes the next slot of the tree, and nothing else changes but the children of
its parent. Whatever an analysis does is made of ordinary operations, so all that is known of trees
holds of its results.
-/

namespace RiskScan

/-- What is in a list that has been extended by one item. -/
theorem List.getElem?_concat_eq_some {α : Type} {items : List α} {last item : α} {place : Nat}
    (h : (items ++ [last])[place]? = some item) :
    (place < items.length ∧ items[place]? = some item) ∨ (place = items.length ∧ item = last) := by
  rcases Nat.lt_or_ge place items.length with hlt | hge
  · rw [List.getElem?_append_left hlt] at h
    exact Or.inl ⟨hlt, h⟩
  · obtain ⟨hbound, hget⟩ := List.getElem?_eq_some_iff.mp h
    rw [List.length_append, List.length_singleton] at hbound
    have hplace : place = items.length := Nat.le_antisymm (Nat.le_of_lt_succ hbound) hge
    subst hplace
    rw [List.getElem_concat_length rfl] at hget
    exact Or.inr ⟨rfl, hget.symm⟩

namespace Store

variable {store : Store} {tree : TreeId} {parent id other : NodeId} {home : Membership}
    {node : Node}

/-- Ordinary operations lead from one store to another. -/
abbrev Proceeds (before after : Store) : Prop :=
  Reaches (fun operation => !operation.registersAlone) before after

theorem Reaches.trans {allowed : Operation → Bool} {first second third : Store}
    (hleft : Reaches allowed first second) (hright : Reaches allowed second third) :
    Reaches allowed first third := by
  induction hright with
  | refl => exact hleft
  | step _ isAllowed known ih => exact ih.step isAllowed known

/-- A store with a new node in the next slot of the tree of its parent. -/
def hang (store : Store) (parent : NodeId) (home : Membership) (node : Node) : Store :=
  (((store.create node).2.link parent store.nodes.size).enrol home.tree
    store.nodes.size).setParentSlot store.nodes.size home.slot

theorem size_create (store : Store) (node : Node) :
    (store.create node).2.nodes.size = store.nodes.size + 1 := by
  simp [create]

theorem tree_create (store : Store) (node : Node) (tree : TreeId) :
    (store.create node).2.tree tree = store.tree tree := rfl

theorem node_hang (hparent : parent < store.nodes.size) (home : Membership) (node : Node)
    (other : NodeId) : (store.hang parent home node).node other =
      if other = store.nodes.size then
        { node with
          hasParent := true
          membership := some ⟨home.tree, (store.tree home.tree).nodes.size⟩
          parentSlot := some home.slot }
      else if other = parent then
        { store.node parent with children := (store.node parent).children ++ [store.nodes.size] }
      else store.node other := by
  have hne : parent ≠ store.nodes.size := Nat.ne_of_lt hparent
  have hlt : store.nodes.size < store.nodes.size + 1 := Nat.lt_succ_self _
  have hparent' : parent < store.nodes.size + 1 := Nat.lt_succ_of_lt hparent
  simp only [hang, setParentSlot, node_modifyNode, node_enrol, size_enrol, link, size_modifyNode,
    size_create, node_create, tree_modifyNode, tree_create, hlt, hparent', and_true]
  by_cases hnew : other = store.nodes.size
  · subst hnew
    simp [hne]
  · by_cases hother : other = parent
    · subst hother
      simp [hne, hne.symm]
    · simp [hnew, hother, Ne.symm hnew, Ne.symm hother]

theorem tree_hang (htree : home.tree < store.trees.size) (parent : NodeId) (node : Node)
    (tree : TreeId) : (store.hang parent home node).tree tree =
      if tree = home.tree then
        { store.tree home.tree with nodes := (store.tree home.tree).nodes.push store.nodes.size }
      else store.tree tree := by
  have hcount : ((store.create node).2.link parent store.nodes.size).trees.size =
      store.trees.size :=
    rfl
  rw [hang, tree_setParentSlot, tree_enrol, hcount, tree_link, tree_link, tree_create, tree_create]
  simp only [htree, and_true, eq_comm]

theorem register_childless (tree : TreeId) (hdetached : (store.node id).membership = none)
    (hchildless : (store.node id).children = []) :
    register tree id store = .ok () (store.enrol tree id) := by
  rw [register, registerWithin, Node.tree?, hdetached, hchildless]
  rfl

/-- A new node never meets an obstacle on its way under a registered one. -/
theorem addChild_create (hparent : (store.node parent).membership = some home)
    (hfresh : node.Fresh) :
    addChild parent store.nodes.size (store.create node).2 = .ok ()
      (store.hang parent home node) := by
  have hne : store.nodes.size ≠ parent := Nat.ne_of_gt (lt_size_of_membership hparent)
  have hnew : (store.create node).2.node store.nodes.size = node := by
    rw [node_create, if_pos rfl]
  have hold : (store.create node).2.node parent = store.node parent := by
    rw [node_create, if_neg hne.symm]
  have herror : (store.create node).2.childError? parent store.nodes.size = none := by
    simp [childError?, hne, hnew, hfresh.hasParent, Node.tree?, hfresh.membership]
  have hregister : register home.tree store.nodes.size
      ((store.create node).2.link parent store.nodes.size) =
      .ok () (((store.create node).2.link parent store.nodes.size).enrol home.tree
        store.nodes.size) := by
    apply register_childless
    · rw [membership_link, hnew, hfresh.membership]
    · rw [children_link _ _ _ ?_, if_neg hne, hnew, hfresh.children]
      rw [size_create]
      exact Nat.lt_succ_of_lt (lt_size_of_membership hparent)
  unfold link at hregister
  rw [addChild, herror, hold, hparent]
  dsimp only
  rw [hregister]
  rfl

/-! ### New nodes come from operations -/

theorem create_addMitigation (store : Store) (node : Node) (mitigation : String) :
    (store.create node).2.addMitigation store.nodes.size mitigation =
      (store.create { node with mitigations := node.mitigations ++ [mitigation] }).2 := by
  have hnodes : (store.nodes.push node).modify store.nodes.size
      (fun node => { node with mitigations := node.mitigations ++ [mitigation] }) =
      store.nodes.push { node with mitigations := node.mitigations ++ [mitigation] } := by
    apply Array.ext
    · simp
    · intro place hplace _
      rw [Array.getElem_modify, Array.getElem_push, Array.getElem_push]
      by_cases hlt : place < store.nodes.size
      · simp [hlt, Nat.ne_of_gt hlt]
      · have heq : store.nodes.size = place := by
          simp at hplace
          omega
        simp [heq]
  simp only [addMitigation, modifyNode, create, hnodes]

end Store

/-- Some draft makes a node that has nothing but what was written down for it. -/
theorem Node.Fresh.exists_draft {node : Node} (h : node.Fresh) :
    ∃ draft : Draft, draft.node = .ok { node with mitigations := [] } := by
  obtain ⟨hchildren, hparent, hmembership, hslot, hdependencies, hmemo⟩ := h
  obtain ⟨kind, description, severity, evidence, confidence, reasoning⟩ := node
  dsimp only at *
  subst hchildren hparent hmembership hslot hdependencies hmemo
  have hseverity := Severity.parse_label severity
  have hconfidence : Confidence.ofValue (.float confidence.value) = .ok confidence :=
    Confidence.ofFloat_value confidence
  let draft : Draft :=
    { kind, description, evidence, reasoning
      severity := .text severity.label
      confidence := .float confidence.value }
  refine ⟨draft, ?_⟩
  simp only [Draft.node, draft, hseverity, hconfidence]
  rfl

namespace Store

variable {store : Store} {tree : TreeId} {parent id other : NodeId} {home : Membership}
    {node : Node}

theorem proceeds_create (store : Store) (hfresh : node.Fresh) :
    Proceeds store (store.create node).2 := by
  have hmitigations : ∀ mitigations,
      Proceeds store (store.create { node with mitigations := mitigations }).2 := by
    intro mitigations
    induction mitigations using List.reverseRecOn with
    | nil =>
      obtain ⟨draft, hdraft⟩ := hfresh.exists_draft
      have hafter : (Operation.create draft).after store =
          (store.create { node with mitigations := [] }).2 := by
        simp only [Operation.after, Operation.perform, Operation.ofNode, hdraft]
        rfl
      rw [← hafter]
      exact .step .refl rfl rfl
    | append_singleton mitigations mitigation ih =>
      have hafter := create_addMitigation store { node with mitigations := mitigations } mitigation
      have hknown : (store.create { node with mitigations := mitigations }).2.knows
          (.addMitigation store.nodes.size mitigation) := by
        rw [knows, decide_eq_true_iff, size_create]
        exact Nat.lt_succ_self _
      rw [← hafter]
      exact ih.step rfl hknown
  exact hmitigations node.mitigations

theorem proceeds_hang (hparent : (store.node parent).membership = some home) (hfresh : node.Fresh) :
    Proceeds store (store.hang parent home node) := by
  have hafter : (Operation.addChild parent store.nodes.size).after (store.create node).2 =
      store.hang parent home node := by
    rw [Operation.after_addChild, StoreM.after, addChild_create hparent hfresh]
  rw [← hafter]
  refine (proceeds_create store hfresh).step rfl ?_
  have hlt := lt_size_of_membership hparent
  simp only [knows, Bool.and_eq_true, decide_eq_true_eq, size_create]
  exact ⟨Nat.lt_succ_of_lt hlt, Nat.lt_succ_self _⟩

/-! ### What is marked in the tree -/

theorem marks_hang (hsound : ArenaSound store)
    (hparent : (store.node parent).membership = some home) (node : Node) :
    (store.hang parent home node).marks home.tree =
      store.marks home.tree ++ [node.mark] := by
  have hlt := lt_size_of_membership hparent
  have hold : ∀ id ∈ (store.tree home.tree).nodes.toList,
      ((store.hang parent home node).node id).mark = (store.node id).mark := by
    intro id hid
    obtain ⟨slot, hslot⟩ := hsound.membership_of_mem_toList hid
    rw [node_hang hlt, if_neg (Nat.ne_of_lt (lt_size_of_membership hslot))]
    split
    · rename_i heq
      rw [heq]
      rfl
    · rfl
  rw [marks, tree_hang (hsound.tree_lt hparent), if_pos rfl, Array.toList_push, List.map_append,
    List.map_congr_left hold, List.map_singleton, node_hang hlt, if_pos rfl]
  rfl

theorem marks_modifyNode (hsound : ArenaSound store) {slot : Nat}
    (hid : (store.node id).membership = some ⟨tree, slot⟩) (f : Node → Node) :
    (store.modifyNode id f).marks tree = (store.marks tree).set slot (f (store.node id)).mark := by
  have hlt := lt_size_of_membership hid
  apply List.ext_getElem?
  intro place
  rw [List.getElem?_set, length_marks, if_pos (hsound.slot_lt hid), getElem?_marks, getElem?_marks,
    nodeIn?, nodeIn?, tree_modifyNode]
  by_cases hplace : slot = place
  · subst hplace
    rw [if_pos rfl, hsound.mem_of_membership hid]
    simp [node_modifyNode, hlt]
  · rw [if_neg hplace]
    cases hget : (store.tree tree).nodes[place]? with
    | none => rfl
    | some other =>
      have hne : id ≠ other := by
        rintro rfl
        have hother := hsound.membership_of_mem hget
        rw [hid] at hother
        cases hother
        exact hplace rfl
      simp [node_modifyNode, hne]

theorem marks_touch (store : Store) (touched tree : TreeId) :
    (store.touch touched).marks tree = store.marks tree := by
  rw [marks, touch_keeps Tree.nodes (fun _ _ => rfl)]
  rfl

/-! ### Dependencies and confidences -/

theorem addDependency_eq {slot place : Nat} (hid : (store.node id).membership = some ⟨tree, slot⟩)
    (hother : (store.node other).membership = some ⟨tree, place⟩) :
    addDependency id other store = .ok () (store.depend id place tree) := by
  rw [addDependency, hid, hother]
  exact if_pos rfl

theorem proceeds_depend {slot place : Nat} (hid : (store.node id).membership = some ⟨tree, slot⟩)
    (hother : (store.node other).membership = some ⟨tree, place⟩) :
    Proceeds store (store.depend id place tree) := by
  have hafter : (Operation.addDependency id other).after store = store.depend id place tree := by
    rw [Operation.after_addDependency, StoreM.after, addDependency_eq hid hother]
  rw [← hafter]
  refine .step .refl rfl ?_
  simp only [knows, Bool.and_eq_true, decide_eq_true_eq]
  exact ⟨lt_size_of_membership hid, lt_size_of_membership hother⟩

theorem marks_depend (hsound : ArenaSound store) {slot : Nat}
    (hid : (store.node id).membership = some ⟨tree, slot⟩) (place : Nat) :
    (store.depend id place tree).marks tree = (store.marks tree).set slot
      { (store.node id).mark with
        dependencies := insertSlot place (store.node id).mark.dependencies } := by
  rw [depend, marks_touch, marks_modifyNode hsound hid]
  rfl

theorem proceeds_bump {delta : Value} {confidence : Confidence} (hid : id < store.nodes.size)
    (hconfidence : (store.node id).confidence.add delta = .ok confidence) :
    Proceeds store (store.setConfidence id confidence) := by
  have hafter : (Operation.bumpConfidence id delta).after store =
      store.setConfidence id confidence := by
    simp only [Operation.after, Operation.perform, Operation.ofNode, bumpConfidence, hconfidence]
    rfl
  rw [← hafter]
  exact .step .refl rfl (decide_eq_true hid)

end Store

theorem Analysis.bind_of_ok {α β : Type} {analysis : Analysis α} {next : α → Analysis β} {a : α}
    {before middle : Store} (h : analysis before = .ok a middle) :
    (analysis >>= next) before = next a middle := by
  change EStateM.bind analysis next before = _
  rw [EStateM.bind, h]

theorem Analysis.bind_of_error {α β : Type} {analysis : Analysis α} {next : α → Analysis β}
    {fault : Fault} {before middle : Store} (h : analysis before = .error fault middle) :
    (analysis >>= next) before = .error fault middle := by
  change EStateM.bind analysis next before = _
  rw [EStateM.bind, h]

theorem Analysis.discard_of_ok {α : Type} {analysis : Analysis α} {a : α} {before after : Store}
    (h : analysis before = .ok a after) : (discard analysis : Analysis Unit) before =
      .ok () after := by
  change EStateM.map _ analysis before = _
  rw [EStateM.map, h]

theorem Analysis.attach_eq {store : Store} {parent : NodeId} {home : Membership} {node : Node}
    (hparent : (store.node parent).membership = some home) (hfresh : node.Fresh) :
    Analysis.attach parent node store = .ok store.nodes.size (store.hang parent home node) := by
  have hchild := Store.addChild_create hparent hfresh
  have hcreate : store.create node = (store.nodes.size, (store.create node).2) := rfl
  rw [Analysis.attach, hcreate]
  dsimp only
  rw [hchild]

end RiskScan

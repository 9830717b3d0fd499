import RiskScan.Proofs.Engine.Scripts
import RiskScan.Proofs.Engine.Shape
/-!
# Sprigs

A finding with its children is a sprig. Where a script is performed, its sprigs take new nodes, and
slots of the tree one after the other: first the finding, then the children. Nothing that was there
before is touched but the branch to which the findings are attached. So a sprig stands as it has
grown, whatever comes later, and apart from where it stands it is the same in all trees.
-/

namespace RiskScan

open Store Engine

/-- A finding and its children in their order, each with whether it depends on the finding. -/
structure Sprig where
  finding : Bud
  children : List (Bud × Bool) := []

/-- The sprig after a deed, unless the deed fails. -/
def Deed.grow? (sprig : Sprig) : Deed → Option Sprig
  | .child bud dependent => some { sprig with children := sprig.children ++ [(bud, dependent)] }
  | .bump delta =>
    match sprig.finding.node.confidence.add delta with
    | .ok confidence =>
      have fresh := sprig.finding.fresh
      some { sprig with finding := ⟨{ sprig.finding.node with confidence },
        ⟨fresh.children, fresh.hasParent, fresh.membership, fresh.parentSlot, fresh.dependencies,
          fresh.memo⟩⟩ }
    | .error _ => none

def Plan.sprig? (plan : Plan) : Option Sprig :=
  plan.deeds.foldlM Deed.grow? ⟨plan.finding, []⟩

/-- The sprigs of a script that does not fail. -/
def Script.sprigs? (script : Script) : Option (List Sprig) :=
  match script.fault with
  | none => script.plans.mapM Plan.sprig?
  | some _ => none

/-- A node in its place in a tree. -/
def Node.placed (node : Node) (home : Membership) (parentSlot : Nat) (children : List NodeId)
    (dependencies : List Nat) : Node :=
  { node with
    children
    hasParent := true
    membership := some home
    parentSlot := some parentSlot
    dependencies
    memo := none }

/-- A sprig stands in a tree, with its finding in a given node and slot and the children in the next
ones. -/
structure Sprig.Stands (sprig : Sprig) (tree : TreeId) (id : NodeId) (slot : Nat) (store : Store) :
    Prop where
  finding : ∃ parentSlot, { store.node id with memo := none } =
    sprig.finding.node.placed ⟨tree, slot⟩ parentSlot
      ((List.range sprig.children.length).map fun place => id + 1 + place) []
  child {place : Nat} {bud : Bud} {dependent : Bool} : sprig.children[place]? =
    some (bud, dependent) →
    { store.node (id + 1 + place) with memo := none } =
      bud.node.placed ⟨tree, slot + 1 + place⟩ slot [] (if dependent then [slot] else [])

/-- Work has gone on in orderly steps, and of the old nodes only branches have been touched. -/
structure Tends (trunk : Trunk) (base store : Store) : Prop where
  steps : trunk.Steps base store
  old {id : NodeId} : id < base.nodes.size → (∀ branch, id ≠ trunk.branches.get branch) →
    store.node id = base.node id

/-- A sprig has grown from a new finding, and has the last nodes and slots. -/
structure Sprouts (trunk : Trunk) (base : Store) (sprig : Sprig) (store : Store) : Prop
    extends Tends trunk base store where
  isFinding : trunk.Finding store base.nodes.size
  stands : sprig.Stands trunk.tree base.nodes.size (base.tree trunk.tree).nodes.size store
  size : store.nodes.size = base.nodes.size + 1 + sprig.children.length
  treeSize : (store.tree trunk.tree).nodes.size =
    (base.tree trunk.tree).nodes.size + 1 + sprig.children.length

variable {trunk : Trunk} {branch : Branch} {base store middle after : Store}
    {sprig : Sprig} {bud : Bud}
  {tree : TreeId} {id parent : NodeId} {slot : Nat} {home : Membership}

theorem Node.Fresh.placed_eq {node : Node} (h : node.Fresh) (home : Membership) (parentSlot : Nat) :
    ({ node with
        hasParent := true, membership := some home, parentSlot := some parentSlot } : Node) =
      node.placed home parentSlot [] [] := by
  obtain ⟨hchildren, hparent, hmembership, hslot, hdependencies, hmemo⟩ := h
  simp only [placed, hchildren, hdependencies, hmemo]

namespace Sprig.Stands

variable (h : sprig.Stands tree id slot store)

include h

theorem membership : (store.node id).membership = some ⟨tree, slot⟩ := by
  obtain ⟨parentSlot, hfinding⟩ := h.finding
  have hmembership := congrArg Node.membership hfinding
  exact hmembership

theorem children :
    (store.node id).children = (List.range sprig.children.length).map (id + 1 + ·) := by
  obtain ⟨parentSlot, hfinding⟩ := h.finding
  have hchildren := congrArg Node.children hfinding
  exact hchildren

theorem severity : (store.node id).severity = sprig.finding.node.severity := by
  obtain ⟨parentSlot, hfinding⟩ := h.finding
  have hseverity := congrArg Node.severity hfinding
  exact hseverity

theorem confidence : (store.node id).confidence = sprig.finding.node.confidence := by
  obtain ⟨parentSlot, hfinding⟩ := h.finding
  have hconfidence := congrArg Node.confidence hfinding
  exact hconfidence

end Sprig.Stands

namespace Tends

theorem refl (store : Store) : Tends trunk store store :=
  ⟨.refl, fun _ _ => rfl⟩

theorem size_le (h : Tends trunk base store) (hstands : trunk.Stands base) :
    base.nodes.size ≤ store.nodes.size :=
  (hstands.reachable.arenaSound.reaches (h.steps.proceeds hstands)).2.size_le

theorem trans (hleft : Tends trunk base middle) (hright : Tends trunk middle after)
    (hstands : trunk.Stands base) : Tends trunk base after where
  steps := hleft.steps.trans hright.steps
  old hid hne := by
    rw [hright.old (Nat.lt_of_lt_of_le hid (hleft.size_le hstands)) hne, hleft.old hid hne]

end Tends

/-! ### Attaching a new node in steps -/

theorem Engine.Trunk.Steps.hang (hbearer : trunk.Bearer store parent)
    (hparent : (store.node parent).membership = some home) {node : Node} (hfresh : node.Fresh) :
    trunk.Steps store (store.hang parent home node) := by
  have howns : (store.create node).2.Owns = store.Owns := by
    funext first second
    rw [Owns, create_keeps Node.children hfresh.children, Owns]
  have hafter : (Operation.addChild parent store.nodes.size).after (store.create node).2 =
      store.hang parent home node := by
    rw [Operation.after_addChild, StoreM.after, addChild_create hparent hfresh]
  have hattach : trunk.Step (store.create node).2 (store.hang parent home node) := by
    rw [← hafter]
    refine .attach ?_ ?_ ?_
    · rwa [Trunk.Bearer, Trunk.Finding, howns]
    · rw [size_create]
      exact Nat.lt_succ_self _
    · rw [node_create, if_pos rfl, hfresh.children]
  exact (Relation.ReflTransGen.single (.create hfresh)).tail hattach

namespace Sprouts

theorem hang (hstands : trunk.Stands base)
    (hslot : (base.node (trunk.branches.get branch)).membership = some ⟨trunk.tree, slot⟩)
    (bud : Bud) :
    Sprouts trunk base ⟨bud, []⟩
      (base.hang (trunk.branches.get branch) ⟨trunk.tree, slot⟩ bud.node) := by
  have hlt := hstands.branch_lt branch
  have htree := hstands.reachable.arenaSound.tree_lt hslot
  refine ⟨⟨.hang (Or.inl ⟨branch, rfl⟩) hslot bud.fresh, ?_⟩, ⟨branch, ?_⟩,
    ⟨⟨slot, ?_⟩, ?_⟩, ?_, ?_⟩
  · intro id hid hne
    rw [node_hang hlt, if_neg (Nat.ne_of_lt hid), if_neg (hne branch)]
  · rw [Owns, node_hang hlt, if_neg (Nat.ne_of_lt hlt), if_pos rfl]
    exact List.mem_append_right _ (List.mem_singleton_self _)
  · rw [node_hang hlt, if_pos rfl, bud.fresh.placed_eq]
    rfl
  · intro place bud dependent hchild
    cases hchild
  · simp [Store.hang, size_create]
  · rw [tree_hang htree, if_pos rfl]
    simp

variable (h : Sprouts trunk base sprig store)

include h

theorem registered :
    (store.node base.nodes.size).membership =
      some ⟨trunk.tree, (base.tree trunk.tree).nodes.size⟩ :=
  h.stands.membership

/-- One node of a sprig is changed, and none is moved. -/
theorem change {changed : NodeId} {grown : Sprig} (hstep : trunk.Step store after)
    (hsame : SameShape store after)
    (hnode : ∀ other, other ≠ changed → after.node other = store.node other)
    (hchanged : base.nodes.size ≤ changed)
    (hgrown : grown.Stands trunk.tree base.nodes.size (base.tree trunk.tree).nodes.size after)
    (hlength : grown.children.length = sprig.children.length) : Sprouts trunk base grown after where
  steps := h.steps.tail hstep
  old {id} hid hne := by rw [hnode id (Nat.ne_of_lt (Nat.lt_of_lt_of_le hid hchanged)),
    h.old hid hne]
  isFinding := by
    obtain ⟨branch, howns⟩ := h.isFinding
    exact ⟨branch, by rwa [Owns, hsame.children]⟩
  stands := hgrown
  size := by rw [hsame.size, h.size, hlength]
  treeSize := by rw [hsame.nodes, h.treeSize, hlength]

/-- The last child comes to depend on the finding. -/
theorem depend {children : List (Bud × Bool)} {finding : Bud}
    (hsprig : sprig = ⟨finding, children ++ [(bud, false)]⟩) :
    Sprouts trunk base ⟨finding, children ++ [(bud, true)]⟩
      (store.depend (base.nodes.size + 1 + children.length) (base.tree trunk.tree).nodes.size
        trunk.tree) := by
  subst hsprig
  have hlast : { store.node (base.nodes.size + 1 + children.length) with memo := none } =
      bud.node.placed ⟨trunk.tree, (base.tree trunk.tree).nodes.size + 1 + children.length⟩
        (base.tree trunk.tree).nodes.size [] [] := h.stands.child List.getElem?_concat_length
  have hmembership := congrArg Node.membership hlast
  have howns : store.Owns base.nodes.size (base.nodes.size + 1 + children.length) := by
    rw [Owns, h.stands.children]
    exact List.mem_map_of_mem (List.mem_range.mpr (by simp))
  have hsame := SameShape.depend store (base.nodes.size + 1 + children.length)
    (base.tree trunk.tree).nodes.size trunk.tree
  have hstep : trunk.Step store
      (store.depend (base.nodes.size + 1 + children.length) (base.tree trunk.tree).nodes.size
          trunk.tree) := by
    have hafter :
        (Operation.addDependency (base.nodes.size + 1 + children.length) base.nodes.size).after
          store =
        store.depend (base.nodes.size + 1 + children.length) (base.tree trunk.tree).nodes.size
          trunk.tree := by
      rw [Operation.after_addDependency, StoreM.after, addDependency_eq hmembership h.registered]
    rw [← hafter]
    exact .depend h.isFinding howns
  have hnode : ∀ other, other ≠ base.nodes.size + 1 + children.length →
      (store.depend (base.nodes.size + 1 + children.length) (base.tree trunk.tree).nodes.size
        trunk.tree).node other = store.node other := by
    intro other hne
    rw [Store.depend, node_touch, node_modifyNode, if_neg fun heq => hne heq.1.symm]
  have hle : base.nodes.size ≤ base.nodes.size + 1 + children.length := by omega
  refine h.change hstep hsame hnode hle ⟨?_, ?_⟩ (by simp)
  · obtain ⟨parentSlot, hfinding⟩ := h.stands.finding
    have hne : base.nodes.size ≠ base.nodes.size + 1 + children.length := by omega
    rw [hnode _ hne]
    exact ⟨parentSlot, by simpa using hfinding⟩
  · intro place child dependent hchild
    rcases List.getElem?_concat_eq_some hchild with ⟨hlt, hold⟩ | ⟨rfl, hnew⟩
    · have hne : base.nodes.size + 1 + place ≠ base.nodes.size + 1 + children.length := by omega
      rw [hnode _ hne]
      exact h.stands.child ((List.getElem?_append_left hlt).trans hold)
    · cases hnew
      have hchange := congrArg (fun node : Node => { node with
        dependencies := insertSlot (base.tree trunk.tree).nodes.size node.dependencies }) hlast
      rw [Store.depend, node_touch, node_modifyNode,
        if_pos ⟨rfl, lt_size_of_membership hmembership⟩]
      exact hchange

theorem setConfidence {delta : Value} {confidence : Confidence} {grown : Bud}
    (hadd : sprig.finding.node.confidence.add delta = .ok confidence)
    (hgrown : grown.node = { sprig.finding.node with confidence := confidence }) :
    Sprouts trunk base { sprig with finding := grown }
      (store.setConfidence base.nodes.size confidence) := by
  have hlt := lt_size_of_membership h.registered
  have hsame : SameShape store (store.setConfidence base.nodes.size confidence) :=
    .modifyNode store base.nodes.size (fun _ => rfl) (fun _ => rfl) (fun _ => rfl) (fun _ => rfl)
  have hproceeds := proceeds_bump hlt (h.stands.confidence ▸ hadd)
  have hstep : trunk.Step store (store.setConfidence base.nodes.size confidence) :=
    .edit hproceeds hsame
      (modifyNode_keeps Node.dependencies (f := fun node => { node with confidence })
        (fun _ => rfl) store _)
  have hnode : ∀ other, other ≠ base.nodes.size →
      (store.setConfidence base.nodes.size confidence).node other = store.node other := by
    intro other hne
    rw [Store.setConfidence, node_modifyNode, if_neg fun heq => hne heq.1.symm]
  refine h.change hstep hsame hnode (Nat.le_refl _) ⟨?_, ?_⟩ rfl
  · obtain ⟨parentSlot, hfinding⟩ := h.stands.finding
    have hchange := congrArg (fun node : Node => { node with confidence := confidence }) hfinding
    rw [Store.setConfidence, node_modifyNode, if_pos ⟨rfl, hlt⟩, hgrown]
    exact ⟨parentSlot, hchange⟩
  · intro place child dependent hchild
    rw [hnode (base.nodes.size + 1 + place) (by omega)]
    exact h.stands.child hchild

variable (hstands : trunk.Stands base)

include hstands

theorem stands_after : trunk.Stands store :=
  hstands.proceeds (h.steps.proceeds hstands)

theorem hangChild (bud : Bud) : Sprouts trunk base
    { sprig with children := sprig.children ++ [(bud, false)] }
    (store.hang base.nodes.size ⟨trunk.tree, (base.tree trunk.tree).nodes.size⟩ bud.node) := by
  have hlt := lt_size_of_membership h.registered
  have hafter := h.stands_after hstands
  have hnode := node_hang hlt ⟨trunk.tree, (base.tree trunk.tree).nodes.size⟩ bud.node
  obtain ⟨parentSlot, hfinding⟩ := h.stands.finding
  have hsteps := h.steps.trans (Trunk.Steps.hang (Or.inr h.isFinding) h.registered bud.fresh)
  refine ⟨⟨hsteps, ?_⟩, ?_, ⟨⟨parentSlot, ?_⟩, ?_⟩, ?_, ?_⟩
  · intro id hid hne
    rw [hnode, if_neg (Nat.ne_of_lt (hid.trans hlt)), if_neg (Nat.ne_of_lt hid), h.old hid hne]
  · obtain ⟨other, howns⟩ := h.isFinding
    have hother := hstands.branch_lt other
    exact ⟨other, by
      rwa [Owns, hnode, if_neg (Nat.ne_of_lt (hother.trans hlt)), if_neg (Nat.ne_of_lt hother)]⟩
  · have hchange :=
      congrArg (fun node => { node with children := node.children ++ [store.nodes.size] }) hfinding
    rw [hnode, if_neg (Nat.ne_of_lt hlt), if_pos rfl]
    refine hchange.trans ?_
    simp [Node.placed, List.range_succ, h.size]
  · intro place child dependent hchild
    rcases List.getElem?_concat_eq_some hchild with ⟨hlt, hold⟩ | ⟨rfl, hnew⟩
    · have hplace : base.nodes.size + 1 + place < store.nodes.size := by
        rw [h.size]
        exact Nat.add_lt_add_left hlt _
      have hne : base.nodes.size + 1 + place ≠ base.nodes.size := by omega
      rw [hnode, if_neg (Nat.ne_of_lt hplace), if_neg hne]
      exact h.stands.child hold
    · -- Nothing has come in between, so the new child has the next node and the next slot.
      cases hnew
      rw [hnode, if_pos h.size.symm, h.treeSize, bud.fresh.placed_eq]
      rfl
  · simp [Store.hang, size_create, h.size, Nat.add_assoc]
  · rw [tree_hang (hafter.reachable.arenaSound.tree_lt h.registered), if_pos rfl]
    simp [h.treeSize, Nat.add_assoc]

theorem child (bud : Bud) (dependent : Bool) : ∃ after,
    (Deed.child bud dependent).perform base.nodes.size store = .ok () after ∧
      Sprouts trunk base { sprig with children := sprig.children ++ [(bud, dependent)] } after := by
  have hattach := Analysis.attach_eq h.registered bud.fresh
  have hhang := h.hangChild hstands bud
  cases dependent with
  | false => exact ⟨_, Analysis.discard_of_ok hattach, hhang⟩
  | true =>
    refine ⟨_, (Analysis.bind_of_ok hattach).trans ?_, hhang.depend rfl⟩
    have hregistered : ((store.hang base.nodes.size ⟨trunk.tree, (base.tree trunk.tree).nodes.size⟩
        bud.node).node store.nodes.size).membership =
          some ⟨trunk.tree, (store.tree trunk.tree).nodes.size⟩ := by
      rw [node_hang (lt_size_of_membership h.registered), if_pos rfl]
    rw [Analysis.ofStore, addDependency_eq hregistered hhang.registered, h.size]

/-- A deed grows the sprig, unless it fails and changes nothing. -/
theorem perform (deed : Deed) :
    match deed.grow? sprig with
    | some grown => ∃ after, deed.perform base.nodes.size store = .ok () after ∧
        Sprouts trunk base grown after
    | none => ∃ fault, deed.perform base.nodes.size store = .error fault store := by
  cases deed with
  | child bud dependent => exact h.child hstands bud dependent
  | bump delta =>
    have hconfidence := h.stands.confidence
    unfold Deed.grow? Deed.perform FollowUp.bump bumpConfidence
    dsimp only
    rw [hconfidence]
    cases hadd : sprig.finding.node.confidence.add delta with
    | ok confidence => exact ⟨_, rfl, h.setConfidence hadd rfl⟩
    | error error => exact ⟨error.fault, rfl⟩

theorem performAll (deeds : List Deed) :
    match deeds.foldlM Deed.grow? sprig with
    | some grown => ∃ after, Deed.performAll base.nodes.size deeds store = .ok () after ∧
        Sprouts trunk base grown after
    | none => ∃ fault after, Deed.performAll base.nodes.size deeds store = .error fault after ∧
        Tends trunk base after := by
  induction deeds generalizing sprig store with
  | nil => exact ⟨store, rfl, h⟩
  | cons deed deeds ih =>
    have hdeed := h.perform hstands deed
    rw [List.foldlM_cons]
    cases hgrow : deed.grow? sprig with
    | none =>
      rw [hgrow] at hdeed
      obtain ⟨fault, hfault⟩ := hdeed
      exact ⟨fault, store, Analysis.bind_of_error hfault, h.toTends⟩
    | some grown =>
      rw [hgrow] at hdeed
      obtain ⟨middle, hmiddle, hgrown⟩ := hdeed
      have hrest := ih hgrown
      rw [Deed.performAll, Analysis.bind_of_ok hmiddle]
      exact hrest

end Sprouts

/-! ### Plans and scripts -/

/-- A plan leaves its sprig, unless it fails. -/
theorem Plan.perform_spec (plan : Plan) (branch : Branch) (hstands : trunk.Stands base) :
    match plan.sprig? with
    | some sprig => ∃ after, plan.perform (trunk.branches.get branch) base =
        .ok base.nodes.size after ∧
        Sprouts trunk base sprig after
    | none => ∃ fault after, plan.perform (trunk.branches.get branch) base = .error fault after ∧
        Tends trunk base after := by
  obtain ⟨slot, hslot⟩ := hstands.branch branch
  have hattach := Analysis.attach_eq hslot plan.finding.fresh
  have hdeeds := (Sprouts.hang hstands hslot plan.finding).performAll hstands plan.deeds
  unfold sprig? perform
  cases hsprig : plan.deeds.foldlM Deed.grow? ⟨plan.finding, []⟩ with
  | none =>
    rw [hsprig] at hdeeds
    obtain ⟨fault, after, hafter, htends⟩ := hdeeds
    exact ⟨fault, after, by rw [Analysis.bind_of_ok hattach, Analysis.bind_of_error hafter], htends⟩
  | some sprig =>
    rw [hsprig] at hdeeds
    obtain ⟨after, hafter, hsprouts⟩ := hdeeds
    exact ⟨after, by rw [Analysis.bind_of_ok hattach, Analysis.bind_of_ok hafter]; rfl, hsprouts⟩

/-! ### Sprigs stand -/

/-- A sprig stands in a node that was not there at first. -/
def Engine.Trunk.Holds (trunk : Trunk) (base store : Store) (id : NodeId) (sprig : Sprig) : Prop :=
  base.nodes.size ≤ id ∧ ∃ slot, sprig.Stands trunk.tree id slot store

theorem Sprig.Stands.of_same (h : sprig.Stands tree id slot store)
    (hsame : ∀ other, id ≤ other → other < store.nodes.size →
      ({ after.node other with memo := none } : Node) = { store.node other with memo := none }) :
    sprig.Stands tree id slot after := by
  constructor
  · obtain ⟨parentSlot, hfinding⟩ := h.finding
    have hlt := lt_size_of_membership (congrArg Node.membership hfinding)
    exact ⟨parentSlot, (hsame id (Nat.le_refl _) hlt).trans hfinding⟩
  · intro place bud dependent hchild
    have hnode := h.child hchild
    have hlt := lt_size_of_membership (congrArg Node.membership hnode)
    have hle : id ≤ id + 1 + place := (Nat.le_succ id).trans (Nat.le_add_right _ place)
    exact (hsame _ hle hlt).trans hnode

theorem Sprig.Stands.ask (h : sprig.Stands tree id slot store) (ids : List NodeId) :
    sprig.Stands tree id slot (store.ask ids) :=
  h.of_same fun other _ _ =>
    ask_keeps (fun node => { node with memo := none }) (fun _ _ => rfl) store ids other

/-- A sprig that stands is not touched by what comes later. -/
theorem Engine.Trunk.Holds.tends (h : trunk.Holds base store id sprig) (hstands : trunk.Stands base)
    (htends : Tends trunk store after) : trunk.Holds base after id sprig := by
  obtain ⟨hle, slot, hslot⟩ := h
  refine ⟨hle, slot, hslot.of_same fun other hother hlt => ?_⟩
  rw [htends.old hlt]
  intro branch
  exact Nat.ne_of_gt ((hstands.branch_lt branch).trans_le (hle.trans hother))

theorem Engine.Trunk.Holds.base_le (h : trunk.Holds middle store id sprig)
    (hle : base.nodes.size ≤ middle.nodes.size) : trunk.Holds base store id sprig :=
  h.imp_left hle.trans

theorem Plan.performAll_spec (plans : List Plan) (branch : Branch) (hstands : trunk.Stands base) :
    match plans.mapM Plan.sprig? with
    | some sprigs => ∃ ids after, Plan.performAll (trunk.branches.get branch) plans base =
        .ok ids after ∧
        Tends trunk base after ∧ List.Forall₂ (trunk.Holds base after) ids sprigs
    | none => ∃ fault after, Plan.performAll (trunk.branches.get branch) plans base =
        .error fault after ∧
        Tends trunk base after := by
  induction plans generalizing base with
  | nil => exact ⟨[], base, rfl, .refl base, .nil⟩
  | cons plan plans ih =>
    have hplan := plan.perform_spec branch hstands
    rw [List.mapM_cons, Plan.performAll]
    cases hsprig : plan.sprig? with
    | none =>
      rw [hsprig] at hplan
      obtain ⟨fault, after, hafter, htends⟩ := hplan
      exact ⟨fault, after, Analysis.bind_of_error hafter, htends⟩
    | some sprig =>
      rw [hsprig] at hplan
      obtain ⟨middle, hmiddle, hsprouts⟩ := hplan
      have hrest := ih (hsprouts.stands_after hstands)
      rw [Analysis.bind_of_ok hmiddle]
      cases hsprigs : plans.mapM Plan.sprig? with
      | none =>
        rw [hsprigs] at hrest
        obtain ⟨fault, after, hafter, htends⟩ := hrest
        exact ⟨fault, after, Analysis.bind_of_error hafter, hsprouts.toTends.trans htends hstands⟩
      | some sprigs =>
        rw [hsprigs] at hrest
        obtain ⟨ids, after, hafter, htends, hholds⟩ := hrest
        have hfirst : trunk.Holds base middle base.nodes.size sprig :=
          ⟨Nat.le_refl _, _, hsprouts.stands⟩
        have hle := hsprouts.toTends.size_le hstands
        refine ⟨base.nodes.size :: ids, after, by rw [Analysis.bind_of_ok hafter]; rfl,
          hsprouts.toTends.trans htends hstands, .cons (hfirst.tends hstands htends) ?_⟩
        exact hholds.imp fun _ _ hid => hid.base_le hle

/-- A script leaves its sprigs, unless it fails. -/
theorem Script.perform_spec (script : Script) (branch : Branch) (hstands : trunk.Stands base) :
    match script.sprigs? with
    | some sprigs => ∃ ids after, script.perform (trunk.branches.get branch) base = .ok ids after ∧
        Tends trunk base after ∧ List.Forall₂ (trunk.Holds base after) ids sprigs
    | none => ∃ fault after, script.perform (trunk.branches.get branch) base = .error fault after ∧
        Tends trunk base after := by
  have hplans := Plan.performAll_spec script.plans branch hstands
  unfold sprigs? perform
  cases hsprigs : script.plans.mapM Plan.sprig? with
  | none =>
    rw [hsprigs] at hplans
    obtain ⟨fault, after, hafter, htends⟩ := hplans
    cases script.fault <;> exact ⟨fault, after, Analysis.bind_of_error hafter, htends⟩
  | some sprigs =>
    rw [hsprigs] at hplans
    obtain ⟨ids, after, hafter, htends, hholds⟩ := hplans
    cases script.fault with
    | none => exact ⟨ids, after, by rw [Analysis.bind_of_ok hafter]; rfl, htends, hholds⟩
    | some fault => exact ⟨fault, after, by rw [Analysis.bind_of_ok hafter]; rfl, htends⟩

/-! ### Analyzers with scripts -/

namespace Analyzer.Scripted

variable {analyzer : Analyzer} (h : analyzer.Scripted)

include h

theorem tends (file : SourceFile) (hstands : trunk.Stands base) :
    Tends trunk base ((analyzer.analyze file trunk.branches).after base) := by
  obtain ⟨script, hscript⟩ := h file
  have hspec := script.perform_spec analyzer.branch hstands
  rw [hscript, Analysis.after]
  cases hsprigs : script.sprigs? with
  | none =>
    rw [hsprigs] at hspec
    obtain ⟨fault, after, hafter, htends⟩ := hspec
    rwa [hafter]
  | some sprigs =>
    rw [hsprigs] at hspec
    obtain ⟨ids, after, hafter, htends, -⟩ := hspec
    rwa [hafter]

theorem orderly : analyzer.Orderly :=
  fun _ file _ hstands => (h.tends file hstands).steps

end Analyzer.Scripted

namespace Engine

variable {analyzers : List Analyzer}

theorem tends_analyzeSources (hscripted : ∀ analyzer ∈ analyzers, analyzer.Scripted)
    (files : List SourceFile) (hstands : trunk.Stands base) :
    Tends trunk base (analyzeSources analyzers trunk.branches files base).2 :=
  analyzeSources_related .refl (fun hstands hleft hright => hleft.trans hright hstands)
    (fun hstands htends => htends.steps.proceeds hstands) files
    (fun file _ hmem _ hstands => (hscripted _ hmem).tends file hstands) hstands

end Engine

end RiskScan

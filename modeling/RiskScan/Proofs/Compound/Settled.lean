import RiskScan.Proofs.Compound.Detection
/-!
# Settled nodes

A node is settled if it gives the same answer whatever has been asked before. Nodes are settled
where dependencies do not go on: where a node depends on others, but these depend on none. Then its
answer is told by severities alone. Of settled nodes a dump and a rendering show the same at any
time.
-/

namespace RiskScan

namespace Outline

mutual

/-- All nodes of an outline have a property. -/
def All (P : NodeId → Prop) : Outline → Prop
  | .node id outlines => P id ∧ AllOf P outlines

def AllOf (P : NodeId → Prop) : List Outline → Prop
  | [] => True
  | outline :: outlines => outline.All P ∧ AllOf P outlines

end

mutual

/-- The dump of an outline if every node answers as it does now. -/
def dumped (store : Store) : Outline → Dump
  | .node id outlines =>
    .node (store.dumpFields id (store.compoundNow id)) (dumpedAll store outlines)

def dumpedAll (store : Store) : List Outline → List Dump
  | [] => []
  | outline :: outlines => outline.dumped store :: dumpedAll store outlines

end

mutual

/-- The rendering of an outline if every node answers as it does now. -/
def rendered (store : Store) (level : Int) : Outline → String
  | .node id outlines =>
    (store.node id).lines level (store.compoundNow id) ++ renderedAll store (level + 1) outlines

def renderedAll (store : Store) (level : Int) : List Outline → String
  | [] => ""
  | outline :: outlines => outline.rendered store level ++ renderedAll store level outlines

end

end Outline

namespace Store

open Relation

/-- Whatever has been asked, the node gives its present answer. -/
def Settled (store : Store) (id : NodeId) : Prop :=
  ∀ ids, (store.ask ids).compoundNow id = store.compoundNow id

/-- The nodes that a node depends on depend on none. -/
def Shallow (store : Store) (id : NodeId) : Prop :=
  ∀ target, store.DependsOn id target → store.dependenciesOf target = []

variable {store : Store} {id target : NodeId}

theorem MemosExact.ask (hexact : MemosExact store) (hsound : ArenaSound store) (ids : List NodeId) :
    MemosExact (store.ask ids) := by
  induction ids generalizing store with
  | nil => exact hexact
  | cons id ids ih => exact ih (hexact.remember hsound id) (hsound.remember id _)

theorem dependenciesOf_ask (store : Store) (ids : List NodeId) (id : NodeId) :
    (store.ask ids).dependenciesOf id = store.dependenciesOf id := by
  have hmembership := ask_keeps Node.membership (fun _ _ => rfl) store ids id
  have hslots := ask_keeps Node.dependencies (fun _ _ => rfl) store ids id
  simp only [dependenciesOf, dependencies?, Node.tree?, hmembership, hslots, tree_ask]

namespace Shallow

theorem acyclicFrom (h : store.Shallow id) : store.AcyclicFrom id := by
  have hend : ∀ {target}, store.DependsOn id target → ∀ other, ¬ store.DependsOn target other := by
    intro target htarget other hother
    rw [DependsOn, h target htarget] at hother
    exact List.not_mem_nil hother
  have hcycle : ∀ {target}, store.DependsOn id target →
      ¬ TransGen store.DependsOn target target := by
    intro target htarget hcycle
    obtain ⟨next, hnext, -⟩ := TransGen.head'_iff.mp hcycle
    exact hend htarget next hnext
  intro other hother hcyclic
  rcases hother.cases_head with rfl | ⟨target, htarget, hrest⟩
  · obtain ⟨target, htarget, hback⟩ := TransGen.head'_iff.mp hcyclic
    exact hcycle htarget (TransGen.tail' hback htarget)
  · rcases hrest.cases_head with rfl | ⟨next, hnext, -⟩
    · exact hcycle htarget hcyclic
    · exact hend htarget next hnext

/-- The answer of such a node is its own severity, raised by the severities that it depends on. -/
theorem compoundNow_eq (h : store.Shallow id) (hsound : ArenaSound store)
    (hexact : MemosExact store) :
    store.compoundNow id =
      if store.dependenciesOf id = [] then (store.node id).severity
      else (store.node id).severity.raised
        (heaviest ((store.dependenciesOf id).map fun target => (store.node target).severity)) := by
  rw [compoundNow, hexact.compound?_eq hsound id h.acyclicFrom, Option.getD_some, compoundWeight]
  split
  · exact Severity.ofWeight_weight _
  · have hweights : (store.dependenciesOf id).attach.map (fun target =>
        store.compoundWeight target.1 (h.acyclicFrom.of_dependsOn target.2)) =
          (store.dependenciesOf id).map fun target => (store.node target).severity.weight := by
      rw [← List.attach_map_val (f := fun target => (store.node target).severity.weight)]
      refine List.map_congr_left fun target _ => ?_
      rw [compoundWeight, if_pos (h target.1 target.2)]
    have hbound : ∀ weight ∈ (store.dependenciesOf id).map fun target =>
        (store.node target).severity.weight,
        weight ≤ Severity.maxWeight :=
      List.forall_mem_map.mpr fun target _ => Severity.weight_le _
    rw [hweights, ← raised_heaviest _ hbound, List.map_map]
    simp only [Function.comp_def, Severity.ofWeight_weight]

theorem ask (h : store.Shallow id) (ids : List NodeId) : (store.ask ids).Shallow id := by
  intro target htarget
  rw [DependsOn, dependenciesOf_ask] at htarget
  rw [dependenciesOf_ask]
  exact h target htarget

theorem settled (h : store.Shallow id) (hsound : ArenaSound store) (hexact : MemosExact store) :
    store.Settled id := by
  intro ids
  have hseverity : ∀ other, ((store.ask ids).node other).severity = (store.node other).severity :=
    ask_keeps Node.severity (fun _ _ => rfl) store ids
  rw [(h.ask ids).compoundNow_eq (hsound.ask ids) (hexact.ask hsound ids),
    h.compoundNow_eq hsound hexact]
  simp only [dependenciesOf_ask, hseverity]

end Shallow

/-! ### Dumps and renderings of settled nodes -/

namespace Reads

variable {P : NodeId → Prop}

theorem compound_of_settled (h : store.Settled id) :
    Reads store (Store.compound id) (· = store.compoundNow id) := by
  intro before
  refine ⟨[id], (store.ask before).compoundNow id, ?_, h before⟩
  rw [ask_append]
  rfl

mutual

theorem dumpOutline_of_settled (hsettled : ∀ id, P id → store.Settled id) :
    (outline : Outline) → outline.All P →
    Reads store outline.dump (· = outline.dumped store)
  | .node id outlines, h => by
    rw [Outline.dump]
    refine (compound_of_settled (hsettled id h.1)).bind fun severity hseverity => ?_
    refine get.bind fun later hlater => ?_
    obtain ⟨ids, rfl⟩ := hlater
    refine (dumpOutlines_of_settled hsettled outlines h.2).bind fun dumps hdumps => pure ?_
    rw [dumpFields_ask, hseverity, hdumps, Outline.dumped]

theorem dumpOutlines_of_settled (hsettled : ∀ id, P id → store.Settled id) :
    (outlines : List Outline) → Outline.AllOf P outlines →
    Reads store (Outline.dumpAll outlines) (· = Outline.dumpedAll store outlines)
  | [], _ => by
    rw [Outline.dumpAll]
    exact pure rfl
  | outline :: outlines, h => by
    rw [Outline.dumpAll]
    refine (dumpOutline_of_settled hsettled outline h.1).bind fun dump hdump => ?_
    refine (dumpOutlines_of_settled hsettled outlines h.2).bind fun dumps hdumps => pure ?_
    rw [hdump, hdumps, Outline.dumpedAll]

end

mutual

theorem renderOutline_of_settled (hsettled : ∀ id, P id → store.Settled id) (level : Int) :
    (outline : Outline) → outline.All P →
    Reads store (outline.render level) (· = outline.rendered store level)
  | .node id outlines, h => by
    rw [Outline.render]
    refine (compound_of_settled (hsettled id h.1)).bind fun severity hseverity => ?_
    refine get.bind fun later hlater => ?_
    obtain ⟨ids, rfl⟩ := hlater
    refine (renderOutlines_of_settled hsettled (level + 1) outlines h.2).bind fun text htext =>
      pure ?_
    rw [ask_keeps (fun node => node.lines level severity) (fun _ _ => rfl), hseverity, htext,
      Outline.rendered]

theorem renderOutlines_of_settled (hsettled : ∀ id, P id → store.Settled id) (level : Int) :
    (outlines : List Outline) → Outline.AllOf P outlines →
      Reads store (Outline.renderAll level outlines) (· = Outline.renderedAll store level outlines)
  | [], _ => by
    rw [Outline.renderAll]
    exact pure rfl
  | outline :: outlines, h => by
    rw [Outline.renderAll]
    refine (renderOutline_of_settled hsettled level outline h.1).bind fun text htext => ?_
    refine (renderOutlines_of_settled hsettled level outlines h.2).bind fun others hothers =>
      pure ?_
    rw [htext, hothers, Outline.renderedAll]

end

end Reads

theorem all_outlineWithin {P : NodeId → Prop}
    (hclosed : ∀ id, P id → ∀ child ∈ (store.node id).children, P child)
    (fuel : Nat) (hid : P id) : (store.outlineWithin fuel id).All P := by
  induction fuel generalizing id with
  | zero => exact ⟨hid, trivial⟩
  | succ fuel ih =>
    have hall : ∀ children : List NodeId, (∀ child ∈ children, P child) →
        Outline.AllOf P (children.map (store.outlineWithin fuel)) := by
      intro children hchildren
      induction children with
      | nil => exact trivial
      | cons child children ihchildren =>
        obtain ⟨hchild, hrest⟩ := List.forall_mem_cons.mp hchildren
        exact ⟨ih hchild, ihchildren hrest⟩
    exact ⟨hid, hall _ (hclosed id hid)⟩

/-- What is shown of a node does not depend on what has been asked if everything below it is
settled. -/
theorem shown_ask_of_settled {P : NodeId → Prop} (hsettled : ∀ id, P id → store.Settled id)
    (hclosed : ∀ id, P id → ∀ child ∈ (store.node id).children, P child) (hid : P id)
    (ids : List NodeId) :
    (dump id (store.ask ids)).1 = (store.outline id).dumped store ∧
      ∀ level, (render level id (store.ask ids)).1 = (store.outline id).rendered store level := by
  have hall : (store.outline id).All P := all_outlineWithin hclosed _ hid
  have hdump : dump id (store.ask ids) = (store.outline id).dump (store.ask ids) := by
    rw [← outline_ask store ids id]
    rfl
  have hrender : ∀ level, render level id (store.ask ids) =
      (store.outline id).render level (store.ask ids) := by
    intro level
    rw [← outline_ask store ids id]
    rfl
  constructor
  · rw [hdump]
    exact (Reads.dumpOutline_of_settled hsettled _ hall).result ids
  · intro level
    rw [hrender]
    exact (Reads.renderOutline_of_settled hsettled level _ hall).result ids

end Store

end RiskScan

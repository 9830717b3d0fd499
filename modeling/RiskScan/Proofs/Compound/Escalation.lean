import RiskScan.Proofs.Compound.Criticality
import RiskScan.Proofs.Compound.Walks
/-!
# Escalation

What has been asked before can raise the answer of a node, but not below what it would answer if all
were forgotten, and not above any solution of the recurrence. The answers with all forgotten are
greatest weights of walks, so they can be compared between two stores by comparing walks: a severity
that is raised makes walks heavier, and a new dependency only adds walks, whatever cycles it closes.
-/

namespace RiskScan

namespace DependencyGraph

variable {graph : DependencyGraph} {all : Finset Nat} {weights : Nat → Nat}

/-- The greatest answer is no more than the weight in any solution. -/
theorem Solution.greatest_le (h : Solution graph.forget weights) (slot : Nat) :
    graph.forget.greatest all slot ≤ weights slot := by
  have hanswer : ∀ target, graph.forget.answer all target ≤ weights target := by
    intro target
    refine h.chain_le ?_ (chain_compound _ _ target)
    intro other weight hknown
    cases hknown
  calc graph.forget.greatest all slot
      ≤ raise (graph.forget.weight slot)
          (strongest ((graph.forget.dependencies slot).map weights)) :=
        raise_mono (Nat.le_refl _) (strongest_map_mono fun target _ => hanswer target)
    _ = weights slot := (h slot).symm

theorem greatest_le_add_two (graph : DependencyGraph) (all : Finset Nat) (slot : Nat) :
    graph.forget.greatest all slot ≤ graph.weight slot + 2 := by
  have hstrongest : strongest ((graph.forget.dependencies slot).map (graph.forget.answer all)) ≤
      Severity.maxWeight := by
    apply strongest_le
    intro weight hweight
    obtain ⟨target, -, rfl⟩ := List.mem_map.mp hweight
    exact answer_le_max (fun _ => rfl) target
  have hmax : Severity.maxWeight = 4 := rfl
  change min (graph.weight slot + _ / 2) Severity.maxWeight ≤ _
  omega

end DependencyGraph

namespace Store

open Relation

variable {store : Store} {tree : TreeId} {id : NodeId}

/-! ### Forgetting -/

/-- The store without anything that is remembered in it. -/
def forgotten (store : Store) : Store :=
  { store with nodes := store.nodes.map fun node => { node with memo := none } }

theorem node_forgotten (store : Store) (id : NodeId) :
    store.forgotten.node id = { store.node id with memo := none } := by
  by_cases hid : id < store.nodes.size
  · simp [forgotten, node, Array.getD, hid]
  · rw [node_of_size_le (Nat.le_of_not_lt hid), node_of_size_le]
    · rfl
    · simpa [forgotten] using Nat.le_of_not_lt hid

@[simp] theorem tree_forgotten (store : Store) (tree : TreeId) :
    store.forgotten.tree tree = store.tree tree := rfl

theorem ArenaSound.forgotten (hsound : ArenaSound store) : ArenaSound store.forgotten :=
  hsound.of_eq (Nat.le_of_eq (by simp [Store.forgotten])) (fun id => by rw [node_forgotten])
    (fun id => by rw [node_forgotten]) (fun id => by rw [node_forgotten]) fun _ => rfl

theorem unaskedFrom_forgotten (store : Store) (id : NodeId) : store.forgotten.UnaskedFrom id := by
  intro other _ home _
  rw [node_forgotten]
  rfl

theorem graph_forgotten (store : Store) (tree : TreeId) :
    store.forgotten.graph tree = (store.graph tree).forget := by
  have hin : ∀ slot, store.forgotten.nodeIn? tree slot =
      (store.nodeIn? tree slot).map fun node => { node with memo := none } := by
    intro slot
    rw [nodeIn?, nodeIn?, tree_forgotten, Option.map_map]
    congr 1
    funext id
    exact node_forgotten store id
  apply DependencyGraph.ext
  · funext slot
    simp only [graph, hin, Option.map_map, DependencyGraph.forget]
    rfl
  · funext slot
    simp only [graph, hin, Option.map_map, DependencyGraph.forget]
    rfl
  · funext slot
    simp only [graph, hin, DependencyGraph.forget]
    cases store.nodeIn? tree slot with
    | none => rfl
    | some node => simp [Node.memoAt?]

theorem compound?_forgotten (hsound : ArenaSound store) {slot : Nat}
    (hid : (store.node id).membership = some ⟨tree, slot⟩) :
    store.forgotten.compound? id = some (Severity.ofWeight
      ((store.graph tree).forget.answer (store.slots tree) slot : Nat)) := by
  have hforgotten : (store.forgotten.node id).membership = some ⟨tree, slot⟩ := by
    rw [node_forgotten]
    exact hid
  rw [compound?_eq_answer hsound.forgotten hforgotten, graph_forgotten]
  rfl

/-! ### Bounds on answers -/

/-- Weights for the nodes of a tree, each of which is that of its node raised by the strongest of
those that it depends on. -/
def Solves (store : Store) (tree? : Option TreeId) (weights : NodeId → Nat) : Prop :=
  ∀ id, (store.node id).tree? = tree? → weights id = raise (store.node id).severity.weight
    (strongest ((store.dependenciesOf id).map weights))

def slotWeights (store : Store) (tree : TreeId) (weights : NodeId → Nat) (slot : Nat) : Nat :=
  ((store.tree tree).nodes[slot]?.map weights).getD 0

theorem Solves.solution {weights : NodeId → Nat} (h : store.Solves (some tree) weights)
    (hsound : ArenaSound store) :
    DependencyGraph.Solution (store.graph tree).forget (store.slotWeights tree weights) := by
  intro slot
  change store.slotWeights tree weights slot = raise ((store.graph tree).weight slot)
    (strongest (((store.graph tree).dependencies slot).map (store.slotWeights tree weights)))
  cases hget : (store.tree tree).nodes[slot]? with
  | none => simp [slotWeights, graph, nodeIn?, hget, strongest, raise]
  | some id =>
    have hid := hsound.membership_of_mem hget
    have hin := hsound.nodeIn? hid
    have hweights : (store.dependenciesOf id).map weights =
        (store.node id).dependencies.map (store.slotWeights tree weights) := by
      rw [hsound.dependenciesOf_eq hid, List.map_map]
      refine List.map_congr_left fun target htarget => ?_
      obtain ⟨other, hother, -⟩ := hsound.membership_of_dependency hid htarget
      rw [Function.comp_apply, nodeAt_of_getElem? hother, slotWeights, hother]
      rfl
    rw [weight_graph hin, dependencies_graph hin, ← hweights,
      ← h id (tree?_eq_some.mpr ⟨slot, hid⟩), slotWeights, hget]
    rfl

theorem Solves.eq_of_detached {weights : NodeId → Nat} (hid : (store.node id).membership = none)
    (h : store.Solves (store.node id).tree? weights) :
    weights id = (store.node id).severity.weight := by
  rw [h id rfl, dependenciesOf_of_detached hid]
  exact raise_zero (Severity.weight_le _)

theorem membership_ask (store : Store) (ids : List NodeId) (id : NodeId) :
    ((store.ask ids).node id).membership = (store.node id).membership :=
  ask_keeps Node.membership (fun _ _ => rfl) store ids id

theorem slots_ask (store : Store) (ids : List NodeId) (tree : TreeId) :
    (store.ask ids).slots tree = store.slots tree := by
  rw [slots, tree_ask, slots]

/-- Whatever has been asked, a slot answers between its first answer and its greatest one. -/
theorem answer_ask_between (hsound : ArenaSound store) (hbounded : MemosBounded store)
    (ids : List NodeId) (tree : TreeId) (slot : Nat) :
    (store.graph tree).forget.answer (store.slots tree) slot ≤
        ((store.ask ids).graph tree).answer ((store.ask ids).slots tree) slot ∧
      ((store.ask ids).graph tree).answer ((store.ask ids).slots tree) slot ≤
        (store.graph tree).forget.greatest (store.slots tree) slot := by
  have hlater := hbounded.ask hsound ids tree
  have hlower := hlater.asked.first_le slot
  have hupper := hlater.answer_le_greatest (target_mem_slots (hsound.ask ids) tree) slot
  have hforget : ((store.ask ids).graph tree).forget = (store.graph tree).forget := by
    rw [graph_ask hsound, forget_askAll]
  rw [hforget, slots_ask] at hlower hupper
  rw [slots_ask]
  exact ⟨hlower, hupper⟩

/-- However a store came about, and whatever has been asked since, the answer of a node lies between
the answer with all forgotten and its weight in any solution of the recurrence. -/
theorem compound_between (hreachable : Reachable store) (ids : List NodeId) (id : NodeId) :
    ∃ first severity, store.forgotten.compound? id = some first ∧
      (store.ask ids).compound? id = some severity ∧ first.weight ≤ severity.weight ∧
      (∀ weights, store.Solves (store.node id).tree? weights → severity.weight ≤ weights id) ∧
      (store.node id).severity.weight ≤ severity.weight ∧
      severity.weight ≤ (store.node id).severity.weight + 2 ∧
      severity.weight ≤ Severity.critical.weight := by
  have hsound := hreachable.arenaSound
  have hasked := membership_ask store ids id
  cases hid : (store.node id).membership with
  | none =>
    rw [hid] at hasked
    have hforgotten : (store.forgotten.node id).membership = none := by
      rw [node_forgotten]
      exact hid
    refine ⟨_, _, hsound.forgotten.compound?_of_detached hforgotten,
      (hsound.ask ids).compound?_of_detached hasked, ?_⟩
    rw [node_forgotten, ask_keeps Node.severity (fun _ _ => rfl)]
    refine ⟨Nat.le_refl _, fun weights hsolves => ?_, Nat.le_refl _, Nat.le_add_right _ 2,
      Severity.weight_le _⟩
    exact Nat.le_of_eq (hsolves.eq_of_detached hid).symm
  | some home =>
    rw [hid] at hasked
    have hnothing : ∀ slot, (store.graph home.tree).forget.remembered slot = none := fun _ => rfl
    have hfirst : (store.graph home.tree).forget.answer (store.slots home.tree) home.slot ≤
        Severity.maxWeight := DependencyGraph.answer_le_max hnothing home.slot
    have hlast :
        ((store.ask ids).graph home.tree).answer ((store.ask ids).slots home.tree) home.slot ≤
        Severity.maxWeight := compound_graph_le (store.ask ids) home.tree _ home.slot
    refine ⟨_, _, compound?_forgotten hsound hid, compound?_eq_answer (hsound.ask ids) hasked, ?_⟩
    obtain ⟨hlower, hupper⟩ :=
      answer_ask_between hsound hreachable.memosBounded ids home.tree home.slot
    rw [Severity.weight_ofWeight_of_le hfirst, Severity.weight_ofWeight_of_le hlast,
      ← weight_graph (hsound.nodeIn? hid)]
    refine ⟨hlower, fun weights hsolves => ?_, ?_, ?_, hlast⟩
    · have htree : (store.node id).tree? = some home.tree := tree?_eq_some.mpr ⟨home.slot, hid⟩
      rw [htree] at hsolves
      calc _ ≤ _ := hupper
        _ ≤ store.slotWeights home.tree weights home.slot :=
          (hsolves.solution hsound).greatest_le home.slot
        _ = weights id := by rw [slotWeights, hsound.mem_of_membership hid]; rfl
    · exact Nat.le_trans (DependencyGraph.weight_le_answer hnothing home.slot) hlower
    · exact Nat.le_trans hupper (DependencyGraph.greatest_le_add_two _ _ home.slot)

/-- Node 1 answers with its first answer, and then with its greatest one once node 2 has been
asked. -/
theorem compound_between_of_mutualPair :
    ∃ store, Reachable store ∧ store.forgotten.compound? 1 = some .medium ∧
      (store.ask [2]).compound? 1 = some .high ∧
      store.Solves (some 0) (fun id => [0, 3, 4].getD id 0) ∧
      Severity.medium.weight ≤ Severity.high.weight ∧ Severity.high.weight ≤ 3 := by
  have hreachable : Reachable (empty.run mutualPair) :=
    reaches_run .refl mutualPair (by decide +kernel)
  have hfirst : (empty.run mutualPair).forgotten.compound? 1 = some .medium := by decide +kernel
  have hlater : ((empty.run mutualPair).ask [2]).compound? 1 = some .high := by decide +kernel
  have htree : ((empty.run mutualPair).node 1).tree? = some 0 := by decide +kernel
  have hsize : (empty.run mutualPair).nodes.size = 3 := by decide +kernel
  have hsolved : ∀ id < 3, [0, 3, 4].getD id 0 =
      raise ((empty.run mutualPair).node id).severity.weight
      (strongest (((empty.run mutualPair).dependenciesOf id).map fun id =>
          [0, 3, 4].getD id 0)) := by
    decide +kernel
  generalize empty.run mutualPair = store at *
  have hsolves : store.Solves (some 0) (fun id => [0, 3, 4].getD id 0) := by
    intro id hid
    obtain ⟨slot, hslot⟩ := tree?_eq_some.mp hid
    exact hsolved id (hsize ▸ lt_size_of_membership hslot)
  obtain ⟨first, severity, hfirst', hseverity, hle, hbound, -⟩ := compound_between hreachable [2] 1
  rw [hfirst] at hfirst'
  rw [hlater] at hseverity
  cases hfirst'
  cases hseverity
  rw [htree] at hbound
  exact ⟨store, hreachable, hfirst, hlater, hsolves, hle, hbound _ hsolves⟩

/-! ### Changes that escalate -/

theorem severity_setSeverity (store : Store) (id other : NodeId) (severity : Severity) :
    ((store.setSeverity id severity).node other).severity =
      if id = other ∧ id < store.nodes.size then severity else (store.node other).severity := by
  have hchanged : ((store.modifyNode id fun node => { node with severity := severity }).node
      other).severity = if id = other ∧ id < store.nodes.size then severity
        else (store.node other).severity := by
    rw [node_modifyNode]
    split <;> rfl
  rw [setSeverity_eq]
  split
  · exact hchanged
  · rwa [node_touch]

/-- Every severity of one store is at least as high in another, and every dependency is there as
well. -/
structure Escalated (before after : Store) : Prop where
  severity (id : NodeId) : (before.node id).severity.weight ≤ (after.node id).severity.weight
  dependsOn (id target : NodeId) : before.DependsOn id target → after.DependsOn id target

namespace Escalated

variable {before after later : Store}

theorem trans (hleft : Escalated before after) (hright : Escalated after later) :
    Escalated before later where
  severity id := Nat.le_trans (hleft.severity id) (hright.severity id)
  dependsOn id target h := hright.dependsOn id target (hleft.dependsOn id target h)

theorem isWalk (h : Escalated before after) {visits : List NodeId}
    (hwalk : before.IsWalk id visits) :
    after.IsWalk id visits :=
  ⟨hwalk.follows.imp h.dependsOn, hwalk.distinct⟩

theorem walkWeight_le (h : Escalated before after) (id : NodeId) (visits : List NodeId) :
    before.walkWeight id visits ≤ after.walkWeight id visits := by
  induction visits generalizing id with
  | nil => exact h.severity id
  | cons next visits ih => exact raise_mono (h.severity id) (ih next)

/-- The greatest weight of a walk does not decrease. -/
theorem isGreatest_le (h : Escalated before after) {weight weight' : Nat}
    (hbefore : IsGreatest (before.walkWeights id) weight)
    (hafter : IsGreatest (after.walkWeights id) weight') : weight ≤ weight' := by
  obtain ⟨visits, hwalk, rfl⟩ := hbefore.1
  calc before.walkWeight id visits
      ≤ after.walkWeight id visits := h.walkWeight_le id visits
    _ ≤ weight' := hafter.2 ⟨visits, h.isWalk hwalk, rfl⟩

/-- Where nodes keep their places, new slots among the dependencies are new dependencies. -/
theorem of_slots (hbefore : ArenaSound before) (hafter : ArenaSound after)
    (hmembership : ∀ id, (after.node id).membership = (before.node id).membership)
    (hseverity : ∀ id, (before.node id).severity.weight ≤ (after.node id).severity.weight)
    (hslots : ∀ id, (before.node id).dependencies ⊆ (after.node id).dependencies) :
    Escalated before after where
  severity := hseverity
  dependsOn id target h := by
    cases hid : (before.node id).membership with
    | none =>
      rw [DependsOn, dependenciesOf_of_detached hid] at h
      exact absurd h List.not_mem_nil
    | some home =>
      obtain ⟨slot, hslot, htarget⟩ := (hbefore.dependsOn_iff hid).mp h
      apply (hafter.dependsOn_iff ((hmembership id).trans hid)).mpr
      exact ⟨slot, hslots id hslot, (hmembership target).trans htarget⟩

theorem forgotten (hsound : ArenaSound store) : Escalated store.forgotten store := by
  apply of_slots hsound.forgotten hsound
  · intro id
    rw [node_forgotten]
  · intro id
    rw [node_forgotten]
  · intro id
    rw [node_forgotten]
    exact List.Subset.refl _

theorem setSeverity (hsound : ArenaSound store) {severity : Severity}
    (hraises : (store.node id).severity.weight ≤ severity.weight) :
    Escalated store (store.setSeverity id severity) := by
  have hshape := SameShape.setSeverity store id severity
  have hdependencies := fun other =>
    setSeverity_keeps Node.dependencies (fun _ _ => rfl) store id other severity
  have hafter : ArenaSound (store.setSeverity id severity) :=
    hsound.of_eq (Nat.le_of_eq hshape.size.symm) hshape.membership hdependencies hshape.children
      hshape.nodes
  apply of_slots hsound hafter hshape.membership
  · intro other
    rw [severity_setSeverity]
    split
    · rename_i hother
      rw [← hother.1]
      exact hraises
    · exact Nat.le_refl _
  · intro other
    rw [hdependencies]
    exact List.Subset.refl _

theorem depend (hsound : ArenaSound store) {target : NodeId} {home other : Membership}
    (hid : (store.node id).membership = some home)
    (htarget : (store.node target).membership = some other) (htree : home.tree = other.tree) :
    Escalated store (store.depend id other.slot home.tree) := by
  apply of_slots hsound (hsound.depend hid htarget htree)
  · exact fun candidate => depend_keeps Node.membership (fun _ _ => rfl) store id candidate _ _
  · intro candidate
    rw [depend_keeps Node.severity (fun _ _ => rfl)]
  · intro candidate slot hslot
    rw [dependencies_depend store candidate _ _ (lt_size_of_membership hid)]
    split
    · rename_i hcandidate
      rw [hcandidate] at hslot
      exact mem_insertSlot.mpr (Or.inr hslot)
    · exact hslot

end Escalated

/-- An operation that raises the severity of a node of a tree, or adds a dependency between two of
its nodes. -/
inductive Escalates (store : Store) (tree : TreeId) : Operation → Prop where
  | severity {id : NodeId} {value : Value} {severity : Severity}
      (member : (store.node id).tree? = some tree) (parsed : Severity.parse value = .ok severity)
      (raises : (store.node id).severity.weight ≤ severity.weight) :
      Escalates store tree (.setSeverity id value)
  | dependency {id target : NodeId} (member : (store.node id).tree? = some tree)
      (targetMember : (store.node target).tree? = some tree) :
      Escalates store tree (.addDependency id target)

namespace Escalates

variable {operation : Operation}

theorem knows (h : store.Escalates tree operation) : store.knows operation := by
  have hlt : ∀ {id}, (store.node id).tree? = some tree → id < store.nodes.size := by
    intro id hid
    obtain ⟨slot, hslot⟩ := tree?_eq_some.mp hid
    exact lt_size_of_membership hslot
  cases h with
  | severity member _ _ => exact decide_eq_true (hlt member)
  | dependency member targetMember => simp [Store.knows, hlt member, hlt targetMember]

/-- Such an operation succeeds, escalates, and moves the revision of the tree on. -/
theorem exists_later (h : store.Escalates tree operation) (hsound : ArenaSound store) :
    ∃ later, operation.perform store = .ok () later ∧ Escalated store later ∧
      (store.tree tree).revision < (later.tree tree).revision := by
  cases h with
  | @severity id value severity member parsed raises =>
    obtain ⟨slot, hslot⟩ := tree?_eq_some.mp member
    refine ⟨store.setSeverity id severity, ?_, .setSeverity hsound raises, ?_⟩
    · simp [Operation.perform, Operation.ofNode, parsed, Except.map, Except.mapError]
    · rw [setSeverity_eq, member]
      exact revision_lt_touch (store.modifyNode id _) (hsound.tree_lt hslot)
  | @dependency id target member targetMember =>
    obtain ⟨slot, hslot⟩ := tree?_eq_some.mp member
    obtain ⟨other, hother⟩ := tree?_eq_some.mp targetMember
    refine ⟨store.depend id other tree, ?_, .depend hsound hslot hother rfl, ?_⟩
    · simp [Operation.perform, Operation.ofTree, addDependency, hslot, hother, Store.depend]
    · exact revision_lt_touch (store.modifyNode id _) (hsound.tree_lt hslot)

end Escalates

/-- Raising a severity, or adding a dependency, lowers no first answer in the tree: once it is done
nothing that was remembered in the tree counts, and every node answers at least what it would have
answered before if all had been forgotten. -/
theorem compound_of_escalates (hreachable : Reachable store) {operation : Operation}
    (h : store.Escalates tree operation) :
    ∃ later, operation.perform store = .ok () later ∧ later.Unasked tree ∧
      ∀ id, (store.node id).tree? = some tree → ∃ before after,
        store.forgotten.compound? id = some before ∧ later.compound? id = some after ∧
          before.weight ≤ after.weight := by
  have hsound := hreachable.arenaSound
  obtain ⟨later, hperform, hescalated, hrevision⟩ := h.exists_later hsound
  have hlater : operation.after store = later := by
    simp only [Operation.after, hperform]
  obtain ⟨hafter, hextends⟩ := hsound.step h.knows
  have hunasked := unasked_of_changed hreachable h.knows (Or.inr (hlater ▸ hrevision))
  rw [hlater] at hafter hextends hunasked
  refine ⟨later, hperform, hunasked, fun id hid => ?_⟩
  have hmember : (later.node id).tree? = some tree := by
    obtain ⟨slot, hslot⟩ := tree?_eq_some.mp hid
    exact tree?_eq_some.mpr ⟨slot, hextends.membership hslot⟩
  obtain ⟨before, hbefore, hfirst⟩ :=
    exists_isGreatest hsound.forgotten (unaskedFrom_forgotten store id)
  obtain ⟨after, hanswer, hlast⟩ := exists_isGreatest hafter (hunasked.unaskedFrom hafter hmember)
  have hgrows : Escalated store.forgotten later := (Escalated.forgotten hsound).trans hescalated
  exact ⟨before, after, hbefore, hanswer, hgrows.isGreatest_le hfirst hlast⟩

/-- Node 1 depends on node 2, and has been asked. -/
def openPair : List Operation :=
  [.create { kind := "A", description := "" },
    .create { kind := "B", description := "", severity := .text "medium" },
    .create { kind := "C", description := "", severity := .text "high" },
    .plant 0, .addChild 0 1, .addChild 0 2, .addDependency 1 2, .compound 1]

/-- A dependency of node 2 on node 1 closes a cycle, and raises the first answers of both. -/
theorem compound_of_closedPair :
    ∃ store later, Reachable store ∧ (store.node 1).memo = some ⟨1, .high⟩ ∧
      store.Escalates 0 (.addDependency 2 1) ∧
      (Operation.addDependency 2 1).perform store = .ok () later ∧ later.Unasked 0 ∧
      store.forgotten.compound? 2 = some .high ∧ later.compound? 2 = some .critical ∧
      Severity.high.weight ≤ Severity.critical.weight := by
  have hreachable : Reachable (empty.run openPair) := reaches_run .refl openPair (by decide +kernel)
  have hfirst : ((empty.run openPair).node 1).tree? = some 0 := by decide +kernel
  have hsecond : ((empty.run openPair).node 2).tree? = some 0 := by decide +kernel
  have hmemo : ((empty.run openPair).node 1).memo = some ⟨1, .high⟩ := by decide +kernel
  have hbefore : (empty.run openPair).forgotten.compound? 2 = some .high := by decide +kernel
  have hafter : ((Operation.addDependency 2 1).after (empty.run openPair)).compound? 2 =
      some .critical := by decide +kernel
  generalize empty.run openPair = store at *
  have hescalates : store.Escalates 0 (.addDependency 2 1) := .dependency hsecond hfirst
  obtain ⟨later, hperform, hunasked, hall⟩ := compound_of_escalates hreachable hescalates
  obtain ⟨before, after, hbefore', hafter', hle⟩ := hall 2 hsecond
  have hlater : (Operation.addDependency 2 1).after store = later := by
    simp only [Operation.after, hperform]
  rw [hlater, hafter'] at hafter
  rw [hbefore] at hbefore'
  cases hbefore'
  cases hafter
  exact ⟨store, later, hreachable, hmemo, hescalates, hperform, hunasked, hbefore, hafter', hle⟩

end Store

end RiskScan

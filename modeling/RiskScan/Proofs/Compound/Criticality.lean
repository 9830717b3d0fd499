import RiskScan.Proofs.Compound.Order
import RiskScan.Proofs.Compound.Renaming
/-!
# Criticality

Along a cycle of dependencies an answer may depend on what has been asked before, and nodes may have
been asked at any time since the revision of their tree last changed, before other nodes joined the
tree too. But whatever is remembered lies between the answer that would be given if nothing were
remembered, and the greatest one. Asking keeps these bounds, and a tree that grows does not move
them, since no node depends on one that joins later. As the bounds have the same half and the
greatest weight is even, whether a node answers with the greatest weight is a matter of severities
and dependencies alone.
-/

namespace RiskScan

namespace DependencyGraph

variable {graph : DependencyGraph} {all : Finset Nat} {slot : Nat}

/-- What is remembered lies between the first answer of its slot and the greatest one. -/
def Bounded (graph : DependencyGraph) (all : Finset Nat) : Prop :=
  ∀ slot weight, graph.remembered slot = some weight →
    graph.forget.answer all slot ≤ weight ∧ weight ≤ graph.forget.greatest all slot

theorem forget_ask (graph : DependencyGraph) (all : Finset Nat) (slot : Nat) :
    (graph.ask all slot).forget = graph.forget := by
  unfold ask
  split <;> rfl

namespace Bounded

theorem asked (h : graph.Bounded all) : Asked graph.forget all graph where
  nothing _ := rfl
  weight := rfl
  dependencies := rfl
  answer_le hremembered :=
    ⟨(h _ _ hremembered).1, Nat.le_trans (h _ _ hremembered).2 (raise_le _ _)⟩

variable (hall : ∀ slot, ∀ target ∈ graph.dependencies slot, target ∈ all)

include hall

theorem answer_le_greatest (h : graph.Bounded all) (slot : Nat) :
    graph.answer all slot ≤ graph.forget.greatest all slot := by
  have hsolution : Solution graph.forget (graph.forget.greatest all) :=
    solution_greatest (fun _ => rfl) hall
  refine (hsolution.of_asked h.asked).chain_le ?_ (chain_compound graph _ slot)
  exact fun other weight hremembered => (h other weight hremembered).2

theorem ask (h : graph.Bounded all) (slot : Nat) : (graph.ask all slot).Bounded all := by
  intro other weight hremembered
  rw [forget_ask]
  rcases remembered_ask hremembered with hold | ⟨rfl, rfl⟩
  · exact h other weight hold
  · exact ⟨h.asked.first_le other, h.answer_le_greatest hall other⟩

theorem answer_eq_max_iff (h : graph.Bounded all) (slot : Nat) :
    graph.answer all slot = Severity.maxWeight ↔
      graph.forget.answer all slot = Severity.maxWeight := by
  have hle := h.answer_le_greatest hall slot
  have hge := h.asked.first_le slot
  have hnothing : ∀ slot, graph.forget.remembered slot = none := fun _ => rfl
  have hhalf : graph.forget.greatest all slot / 2 = graph.forget.answer all slot / 2 :=
    half_greatest hnothing hall slot
  have hfirst : graph.forget.answer all slot ≤ Severity.maxWeight := answer_le_max hnothing slot
  have hlast : graph.forget.greatest all slot ≤ Severity.maxWeight := raise_le _ _
  have hmax : Severity.maxWeight = 4 := rfl
  omega

end Bounded

end DependencyGraph

namespace Store

variable {store : Store} {tree : TreeId} {id : NodeId}

/-- In every tree, what is remembered lies in its bounds. -/
def MemosBounded (store : Store) : Prop :=
  ∀ tree, (store.graph tree).Bounded (store.slots tree)

theorem nodeIn?_eq_some {slot : Nat} {node : Node} (h : store.nodeIn? tree slot = some node) :
    ∃ id, (store.tree tree).nodes[slot]? = some id ∧ store.node id = node :=
  Option.map_eq_some_iff.mp h

theorem exists_memo_of_remembered {slot weight : Nat}
    (h : (store.graph tree).remembered slot = some weight) :
    ∃ id severity, (store.tree tree).nodes[slot]? = some id ∧
      (store.node id).dependencies ≠ [] ∧ severity.weight = weight ∧
      (store.node id).memo = some ⟨(store.tree tree).revision, severity⟩ := by
  cases hnode : store.nodeIn? tree slot with
  | none =>
    simp only [graph, hnode] at h
    cases h
  | some node =>
    obtain ⟨id, hid, rfl⟩ := nodeIn?_eq_some hnode
    rw [remembered_graph hnode] at h
    split at h
    · cases h
    · rename_i hsome
      obtain ⟨severity, hmemo, hweight⟩ := Option.map_eq_some_iff.mp h
      exact ⟨id, severity, hid, by simpa using hsome, hweight, memo_of_memoAt? hmemo⟩

/-- A tree whose revision has stayed occurs in what it has become, with its slots in their
places. -/
theorem Advances.occurs {before after : Store} (hbefore : ArenaSound before)
    (hafter : ArenaSound after) (hextends : Extends before after)
    (hadvances : Advances before after)
    (hrevision : (after.tree tree).revision = (before.tree tree).revision) :
    DependencyGraph.Occurs (fun slot => slot < (before.tree tree).nodes.size) (fun slot => slot)
      (before.graph tree) (after.graph tree) := by
  have hnode : ∀ slot < (before.tree tree).nodes.size, ∃ id,
      (before.node id).membership = some ⟨tree, slot⟩ ∧
        before.nodeIn? tree slot = some (before.node id) ∧
        after.nodeIn? tree slot = some (after.node id) := by
    intro slot hslot
    have hget := Array.getElem?_eq_getElem hslot
    have hmembership := hbefore.membership_of_mem hget
    exact ⟨_, hmembership, hbefore.nodeIn? hmembership,
      hafter.nodeIn? (hextends.membership hmembership)⟩
  constructor
  · exact fun _ _ heq => heq
  · intro slot target hslot htarget
    obtain ⟨id, hmembership, hin, -⟩ := hnode slot hslot
    rw [dependencies_graph hin] at htarget
    exact hbefore.dependency_lt hmembership htarget
  · intro slot hslot
    obtain ⟨id, hmembership, hin, hinAfter⟩ := hnode slot hslot
    rw [weight_graph hin, weight_graph hinAfter, hadvances.severity hmembership hrevision]
  · intro slot hslot
    obtain ⟨id, hmembership, hin, hinAfter⟩ := hnode slot hslot
    rw [dependencies_graph hin, dependencies_graph hinAfter,
      hadvances.dependencies hmembership hrevision, List.map_id']

theorem Extends.treeSize_le {before after : Store} (hextends : Extends before after)
    (htree : tree < before.trees.size) :
    (before.tree tree).nodes.size ≤ (after.tree tree).nodes.size := by
  simpa using (hextends.isPrefix htree).length_le

namespace MemosBounded

theorem empty : MemosBounded Store.empty := by
  intro tree slot weight hremembered
  obtain ⟨id, -, hid, -⟩ := exists_memo_of_remembered hremembered
  exact absurd (lt_treeCount_of_mem hid) (Nat.not_lt_zero tree)

theorem advance {after : Store} (hbounded : MemosBounded store) (hexact : MemosExact store)
    (hbefore : ArenaSound store) (hafter : ArenaSound after) (hextends : Extends store after)
    (hadvances : Advances store after) : MemosBounded after := by
  intro tree slot weight hremembered
  obtain ⟨id, severity, hid, hsome, rfl, hmemo⟩ := exists_memo_of_remembered hremembered
  have hmembership := hafter.membership_of_mem hid
  have hmemoBefore := hmemo
  rw [hadvances.memo] at hmemoBefore
  -- a memo that counts now is from a revision that the tree had before, and has kept
  obtain ⟨home, hhome, hle⟩ := hexact.past hmemoBefore
  have hsame := hextends.membership hhome
  rw [hmembership] at hsame
  cases hsame
  have hrevision : (after.tree tree).revision = (store.tree tree).revision :=
    Nat.le_antisymm hle (hadvances.revision_le tree)
  have hslot : slot < (store.tree tree).nodes.size := hbefore.slot_lt hhome
  have hsize := hextends.treeSize_le (hbefore.tree_lt hhome)
  -- so the bounds are those of the old tree, which occurs in the new one
  have hoccurs := Advances.occurs hbefore hafter hextends hadvances hrevision
  have hall : ∀ other < (store.tree tree).nodes.size,
      (other ∈ after.slots tree ↔ other ∈ store.slots tree) := by
    intro other hother
    simp only [slots, Finset.mem_range]
    exact iff_of_true (Nat.lt_of_lt_of_le hother hsize) hother
  rw [hoccurs.answer_eq hall hslot, hoccurs.greatest_eq hall hslot]
  refine hbounded tree slot severity.weight ?_
  rw [hadvances.dependencies hhome hrevision] at hsome
  rw [remembered_graph (hbefore.nodeIn? hhome), if_neg (by simpa using hsome),
    memoAt?_of_memo (hmemoBefore.trans (by rw [hrevision])), Option.map_some]

theorem remember (hbounded : MemosBounded store) (hsound : ArenaSound store) (id : NodeId) :
    MemosBounded (store.remember id (store.compoundNow id)) := by
  intro tree
  have hslots : (store.remember id (store.compoundNow id)).slots tree = store.slots tree := by
    rw [slots, tree_remember, slots]
  rw [hslots]
  by_cases hid : (store.node id).tree? = some tree
  · obtain ⟨slot, hslot⟩ := tree?_eq_some.mp hid
    rw [graph_remember hsound hslot]
    exact (hbounded tree).ask (target_mem_slots hsound tree) slot
  · rw [graph_remember_of_ne hsound _ hid]
    exact hbounded tree

theorem step (hbounded : MemosBounded store) (hexact : MemosExact store) (hsound : ArenaSound store)
    {operation : Operation} (hknown : store.knows operation) :
    MemosBounded (operation.after store) := by
  obtain ⟨hafter, hextends⟩ := hsound.step hknown
  by_cases hcompound : ∃ id, operation = .compound id
  · obtain ⟨id, rfl⟩ := hcompound
    exact hbounded.remember hsound id
  · have hadvances := Advances.step hsound hknown fun id heq => hcompound ⟨id, heq⟩
    exact hbounded.advance hexact hsound hafter hextends hadvances

theorem ask (hbounded : MemosBounded store) (hsound : ArenaSound store) (ids : List NodeId) :
    MemosBounded (store.ask ids) := by
  induction ids generalizing store with
  | nil => exact hbounded
  | cons id ids ih => exact ih (hbounded.remember hsound id) (hsound.remember id _)

end MemosBounded

theorem Reaches.memosBounded {allowed : Operation → Bool} (hreaches : Reaches allowed empty store) :
    MemosBounded store := by
  induction hreaches with
  | refl => exact .empty
  | step hbefore _ hknown ih => exact ih.step hbefore.memosExact hbefore.arenaSound hknown

/-! ### Critical nodes -/

/-- A node answers that it is critical, and is held with at least a given confidence. -/
def Critical (store : Store) (floor : Float) (id : NodeId) : Prop :=
  store.compoundNow id = .critical ∧ floor ≤ (store.node id).confidence.value

instance (store : Store) (floor : Float) (id : NodeId) : Decidable (store.Critical floor id) :=
  inferInstanceAs (Decidable (_ ∧ _))

theorem compoundNow_of_detached (hsound : ArenaSound store)
    (hid : (store.node id).membership = none) :
    store.compoundNow id = (store.node id).severity := by
  rw [compoundNow, hsound.compound?_of_detached hid, Option.getD_some]

/-- Whether a node answers that it is critical can be told from severities and dependencies. -/
theorem compoundNow_eq_critical_iff (hsound : ArenaSound store) (hbounded : MemosBounded store)
    {slot : Nat} (hid : (store.node id).membership = some ⟨tree, slot⟩) :
    store.compoundNow id = .critical ↔
      (store.graph tree).forget.answer (store.slots tree) slot = Severity.maxWeight := by
  have hle : (store.graph tree).answer (store.slots tree) slot ≤ Severity.maxWeight :=
    compound_graph_le store tree _ slot
  rw [compoundNow_eq_answer hsound hid, ofWeight_eq_critical_iff hle]
  exact (hbounded tree).answer_eq_max_iff (target_mem_slots hsound tree) slot

theorem forget_askAll (graph : DependencyGraph) (all : Finset Nat) (slots : List Nat) :
    (graph.askAll all slots).forget = graph.forget := by
  induction slots generalizing graph with
  | nil => rfl
  | cons slot slots ih => exact (ih (graph.ask all slot)).trans (graph.forget_ask all slot)

theorem compoundNow_ask_eq_critical_iff (hsound : ArenaSound store) (hbounded : MemosBounded store)
    (ids : List NodeId) (id : NodeId) :
    (store.ask ids).compoundNow id = .critical ↔ store.compoundNow id = .critical := by
  have hmembership : ((store.ask ids).node id).membership = (store.node id).membership :=
    ask_keeps Node.membership (fun _ _ => rfl) store ids id
  cases hid : (store.node id).membership with
  | none =>
    rw [hid] at hmembership
    rw [compoundNow_of_detached (hsound.ask ids) hmembership, compoundNow_of_detached hsound hid,
      ask_keeps Node.severity (fun _ _ => rfl)]
  | some home =>
    rw [hid] at hmembership
    have hslots : (store.ask ids).slots home.tree = store.slots home.tree := by
      rw [slots, tree_ask, slots]
    rw [compoundNow_eq_critical_iff (hsound.ask ids) (hbounded.ask hsound ids) hmembership,
      compoundNow_eq_critical_iff hsound hbounded hid, graph_ask hsound, forget_askAll, hslots]

end Store

end RiskScan

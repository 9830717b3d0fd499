import RiskScan.Proofs.Compound.Graph
import RiskScan.Proofs.Store.Arena
/-!
# Evaluating compound severities

What a store answers about a node of a tree is what the dependency graph of the tree gives for its
slot. The bound on the depth is never reached, because every level opens another slot, and all slots
that are met are in use. So in every reachable store dependencies resolve, and every node has a
compound severity.
-/

namespace RiskScan

theorem Severity.ofWeight_raise (base weight : Nat) :
    ofWeight (raise base weight : Nat) = ofWeight (base + weight / 2 : Nat) := by
  have hweight := weight_ofWeight (base + weight / 2)
  calc ofWeight (raise base weight : Nat)
      = ofWeight ((ofWeight (base + weight / 2 : Nat)).weight : Nat) := by rw [hweight]; rfl
    _ = ofWeight (base + weight / 2 : Nat) := ofWeight_weight _

theorem Severity.weight_ofWeight_of_le {weight : Nat} (h : weight ≤ maxWeight) :
    (ofWeight weight).weight = weight := by
  rw [weight_ofWeight, Nat.min_eq_left h]

/-- Weights on the scale raise a severity as the grades of these weights do. -/
theorem raised_heaviest (base : Severity) {weights : List Nat}
    (h : ∀ weight ∈ weights, weight ≤ Severity.maxWeight) :
    base.raised (heaviest (weights.map fun (weight : Nat) => Severity.ofWeight weight)) =
      Severity.ofWeight (raise base.weight (strongest weights) : Nat) := by
  have hweights : (weights.map fun (weight : Nat) => Severity.ofWeight weight).map Severity.weight =
      weights := by
    rw [List.map_map]
    calc weights.map (Severity.weight ∘ fun (weight : Nat) => Severity.ofWeight weight)
        = weights.map id :=
          List.map_congr_left fun weight hweight =>
            Severity.weight_ofWeight_of_le (h weight hweight)
      _ = weights := List.map_id weights
  rw [Severity.raised, heaviest, hweights, Severity.ofWeight_raise]
  rfl

theorem mapM_eq_some_map {α β : Type} {f : α → Option β} {g : α → β} {items : List α}
    (h : ∀ item ∈ items, f item = some (g item)) : items.mapM f = some (items.map g) := by
  induction items with
  | nil => rfl
  | cons item items ih =>
    rw [List.mapM_cons, h item List.mem_cons_self,
      ih fun other hother => h other (List.mem_cons_of_mem item hother)]
    rfl

namespace Store

def nodeIn? (store : Store) (tree : TreeId) (slot : Nat) : Option Node :=
  (store.tree tree).nodes[slot]?.map store.node

/-- The dependency graph of a tree. A node without dependencies remembers nothing. -/
def graph (store : Store) (tree : TreeId) : DependencyGraph where
  weight slot := ((store.nodeIn? tree slot).map fun node => node.severity.weight).getD 0
  weight_le slot := by
    cases store.nodeIn? tree slot with
    | none => exact Nat.zero_le _
    | some node => exact Severity.weight_le node.severity
  dependencies slot := ((store.nodeIn? tree slot).map Node.dependencies).getD []
  remembered slot := (store.nodeIn? tree slot).bind fun node =>
    if node.dependencies.isEmpty then none
    else (node.memoAt? (store.tree tree).revision).map Severity.weight

variable {store : Store} {tree : TreeId} {slot : Nat} {id : NodeId} {node : Node}

theorem weight_graph (h : store.nodeIn? tree slot = some node) :
    (store.graph tree).weight slot = node.severity.weight := by
  simp [graph, h]

theorem dependencies_graph (h : store.nodeIn? tree slot = some node) :
    (store.graph tree).dependencies slot = node.dependencies := by
  simp [graph, h]

theorem remembered_graph (h : store.nodeIn? tree slot = some node) :
    (store.graph tree).remembered slot =
      if node.dependencies.isEmpty then none
      else (node.memoAt? (store.tree tree).revision).map Severity.weight := by
  simp [graph, h]

theorem nodeIn?_of_getElem? (h : (store.tree tree).nodes[slot]? = some id) :
    store.nodeIn? tree slot = some (store.node id) := by
  rw [nodeIn?, h, Option.map_some]

theorem remembered_le {weight : Nat} (h : (store.graph tree).remembered slot = some weight) :
    weight ≤ Severity.maxWeight := by
  cases hnode : store.nodeIn? tree slot with
  | none =>
    simp only [graph, hnode] at h
    cases h
  | some node =>
    rw [remembered_graph hnode] at h
    split at h
    · cases h
    · obtain ⟨severity, -, rfl⟩ := Option.map_eq_some_iff.mp h
      exact Severity.weight_le severity

theorem compound_graph_le (store : Store) (tree : TreeId) (closed : Finset Nat) (slot : Nat) :
    (store.graph tree).compound closed slot ≤ Severity.maxWeight :=
  DependencyGraph.compound_le fun _ => remembered_le

theorem contribution_graph_le (store : Store) (tree : TreeId) (closed : Finset Nat) (target : Nat) :
    (store.graph tree).contribution closed target ≤ Severity.maxWeight := by
  unfold DependencyGraph.contribution
  split
  · exact compound_graph_le store tree _ target
  · exact (store.graph tree).weight_le target

theorem nodeAt_of_getElem? (h : (store.tree tree).nodes[slot]? = some id) :
    (store.tree tree).nodeAt slot = id := by
  simp [Tree.nodeAt, Array.getD_eq_getD_getElem?, h]

namespace ArenaSound

theorem nodeAt (hsound : ArenaSound store) (h : (store.node id).membership = some ⟨tree, slot⟩) :
    (store.tree tree).nodeAt slot = id :=
  nodeAt_of_getElem? (hsound.mem_of_membership h)

theorem nodeIn? (hsound : ArenaSound store) (h : (store.node id).membership = some ⟨tree, slot⟩) :
    store.nodeIn? tree slot = some (store.node id) :=
  nodeIn?_of_getElem? (hsound.mem_of_membership h)

theorem membership_of_dependency (hsound : ArenaSound store) {home : Membership} {target : Nat}
    (h : (store.node id).membership = some home) (htarget : target ∈ (store.node id).dependencies) :
    ∃ other, (store.tree home.tree).nodes[target]? = some other ∧
      (store.node other).membership = some ⟨home.tree, target⟩ := by
  have hlt := hsound.dependency_lt h htarget
  have hget := Array.getElem?_eq_getElem hlt
  exact ⟨_, hget, hsound.membership_of_mem hget⟩

/-- The evaluation of a node that has just been opened follows the graph, as long as `fuel` exceeds
the number of closed slots. -/
theorem compoundWithin_eq (hsound : ArenaSound store) (fuel : Nat) :
    ∀ {id : NodeId} {slot : Nat} {open_ : List Nat} {closed : Finset Nat},
      (store.node id).membership = some ⟨tree, slot⟩ →
      (∀ target < (store.tree tree).nodes.size, target ∈ closed ↔ target ∉ slot :: open_) →
      closed.card < fuel →
      store.compoundWithin fuel open_ id =
        some (Severity.ofWeight ((store.graph tree).compound closed slot : Nat)) := by
  induction fuel with
  | zero => exact fun _ _ hfuel => absurd hfuel (Nat.not_lt_zero _)
  | succ fuel ih =>
    intro id slot open_ closed hid hclosed hfuel
    have hnode := hsound.nodeIn? hid
    have hweight := weight_graph hnode
    have hdependencies := dependencies_graph hnode
    have hremembered := remembered_graph hnode
    unfold compoundWithin
    dsimp only
    split
    · rename_i hnone
      rw [if_pos hnone] at hremembered
      rw [DependencyGraph.compound_of_not_remembered hremembered, hweight, hdependencies,
        List.isEmpty_iff.mp hnone, List.map_nil]
      rw [show strongest [] = 0 from rfl, raise_zero (Severity.weight_le _),
        Severity.ofWeight_weight]
    · rename_i hsome
      rw [if_neg hsome] at hremembered
      simp only [hid]
      cases hmemo : (store.node id).memoAt? (store.tree tree).revision with
      | some severity =>
        rw [hmemo] at hremembered
        rw [DependencyGraph.compound_of_remembered hremembered, Severity.ofWeight_weight]
      | none =>
        rw [hmemo] at hremembered
        rw [DependencyGraph.compound_of_not_remembered hremembered]
        have heach : ∀ target ∈ (store.node id).dependencies,
            ((store.tree tree).nodes[target]? >>= fun other =>
              if target ∈ slot :: open_ then some (store.node other).severity
              else store.compoundWithin fuel (slot :: open_) other) =
              some (Severity.ofWeight ((store.graph tree).contribution closed target : Nat)) := by
          intro target htarget
          obtain ⟨other, hother, hmembership⟩ := hsound.membership_of_dependency hid htarget
          have hlt := hsound.dependency_lt hid htarget
          rw [hother]
          dsimp only [bind, Option.bind]
          by_cases hopen : target ∈ slot :: open_
          · have hnot : target ∉ closed := fun hmem => (hclosed target hlt).mp hmem hopen
            rw [if_pos hopen, DependencyGraph.contribution, if_neg hnot]
            rw [weight_graph (nodeIn?_of_getElem? hother), Severity.ofWeight_weight]
          · have hmem : target ∈ closed := (hclosed target hlt).mpr hopen
            rw [if_neg hopen, DependencyGraph.contribution, if_pos hmem]
            refine ih hmembership ?_ ?_
            · intro candidate hcandidate
              rw [Finset.mem_erase, hclosed candidate hcandidate, List.mem_cons (b := target),
                not_or]
            · have hcard := Finset.card_erase_lt_of_mem hmem
              omega
        have hweights : ∀ weight ∈ (store.node id).dependencies.map
            ((store.graph tree).contribution closed), weight ≤ Severity.maxWeight := by
          intro weight hmem
          obtain ⟨target, -, rfl⟩ := List.mem_map.mp hmem
          exact contribution_graph_le store tree closed target
        dsimp only
        rw [mapM_eq_some_map heach, Option.map_some, hweight, hdependencies,
          ← raised_heaviest (store.node id).severity hweights, List.map_map]
        rfl

theorem compound?_eq (hsound : ArenaSound store)
    (hid : (store.node id).membership = some ⟨tree, slot⟩) :
    store.compound? id = some (Severity.ofWeight ((store.graph tree).compound
      ((Finset.range (store.tree tree).nodes.size).erase slot) slot : Nat)) := by
  unfold compound?
  simp only [hid]
  refine hsound.compoundWithin_eq _ hid ?_ ?_
  · intro target htarget
    simp [htarget]
  · have hcard := Finset.card_erase_le (s := Finset.range (store.tree tree).nodes.size) (a := slot)
    rw [Finset.card_range] at hcard
    omega

theorem compound?_of_detached (hsound : ArenaSound store)
    (hid : (store.node id).membership = none) :
    store.compound? id = some (store.node id).severity := by
  simp [compound?, compoundWithin, hsound.dependencies_of_detached hid]

theorem exists_compound (hsound : ArenaSound store) (id : NodeId) :
    ∃ severity, store.compound? id = some severity := by
  cases hid : (store.node id).membership with
  | none => exact ⟨_, hsound.compound?_of_detached hid⟩
  | some home => exact ⟨_, hsound.compound?_eq hid⟩

theorem dependencies?_eq (hsound : ArenaSound store) {home : Membership}
    (hid : (store.node id).membership = some home) :
    store.dependencies? id =
      some ((store.node id).dependencies.map (store.tree home.tree).nodeAt) := by
  simp only [dependencies?, Node.tree?, hid, Option.map_some, Tree.resolve?]
  refine mapM_eq_some_map fun target htarget => ?_
  obtain ⟨other, hother, -⟩ := hsound.membership_of_dependency hid htarget
  rw [hother, nodeAt_of_getElem? hother]

theorem dependencies?_of_detached (hid : (store.node id).membership = none) :
    store.dependencies? id = some [] := by
  simp [dependencies?, Node.tree?, hid]

end ArenaSound

end Store

end RiskScan

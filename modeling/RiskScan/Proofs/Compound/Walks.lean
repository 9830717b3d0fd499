import Mathlib.Order.Bounds.Defs
import RiskScan.Proofs.Compound.Order
/-!
# Walks along dependencies

Asked when nothing is remembered, a node answers with a maximum over walks. A walk follows
dependencies from node to node and meets no node twice, except that its last node may be one that it
has met before: this is the node at which the evaluation closes a cycle, and it counts there with
its own severity. The weight of a walk is folded back from its end, where each node on the way is
raised by what comes after it.

Chains of slots in the graph of a tree are these walks, seen from the slots that are still closed.
-/

namespace RiskScan.Store

open Relation

variable {store : Store} {tree : TreeId} {id : NodeId}

/-- Dependencies lead from a node through the given ones in turn, and only the last of these may
have been met before. -/
structure IsWalk (store : Store) (id : NodeId) (visits : List NodeId) : Prop where
  follows : (id :: visits).IsChain store.DependsOn
  distinct : (id :: visits).dropLast.Nodup

def walkWeight (store : Store) : NodeId → List NodeId → Nat
  | id, [] => (store.node id).severity.weight
  | id, next :: visits => raise (store.node id).severity.weight (store.walkWeight next visits)

/-- Nothing that is remembered in a node, or in those that it depends on, counts at the present
revision. -/
def UnaskedFrom (store : Store) (id : NodeId) : Prop :=
  ∀ other, ReflTransGen store.DependsOn id other →
    ∀ home, (store.node other).membership = some home →
    (store.node other).memoAt? (store.tree home.tree).revision = none

theorem UnaskedFrom.of_dependsOn {target : NodeId} (h : store.UnaskedFrom id)
    (hdepends : store.DependsOn id target) : store.UnaskedFrom target :=
  fun other hother => h other (.head hdepends hother)

theorem UnaskedFrom.nothing (h : store.UnaskedFrom id) (hsound : ArenaSound store) {slot : Nat}
    (hid : (store.node id).membership = some ⟨tree, slot⟩) :
    (store.graph tree).remembered slot = none := by
  rw [remembered_graph (hsound.nodeIn? hid), h id .refl _ hid]
  split <;> rfl

/-- In an unasked tree nothing is remembered along any dependencies. -/
theorem Unasked.unaskedFrom (h : store.Unasked tree) (hsound : ArenaSound store)
    (hid : (store.node id).tree? = some tree) : store.UnaskedFrom id := by
  obtain ⟨slot, hslot⟩ := tree?_eq_some.mp hid
  intro other hother home hhome
  have htree : (store.node other).tree? = some tree := by
    rcases reflTransGen_iff_eq_or_transGen.mp hother with rfl | hbelow
    · exact hid
    · exact tree?_eq_some.mpr (hsound.tree_of_below hslot hbelow)
  have hsame : home.tree = tree := by
    rw [tree?_of_membership hhome] at htree
    exact Option.some.inj htree
  rw [hsame]
  exact h other htree

/-- Right after a tree has been touched, it is unasked. -/
theorem unasked_touch (hreachable : Reachable store) (htree : tree < store.trees.size) :
    (store.touch tree).Unasked tree := by
  have hknown : store.knows (.touch tree) := decide_eq_true htree
  exact unasked_of_changed hreachable hknown (Or.inr (revision_lt_touch store htree))

/-! ### Chains are walks -/

theorem nodup_dropLast_cons {next : NodeId} {visits : List NodeId} :
    (next :: visits).dropLast.Nodup ↔ next ∉ visits.dropLast ∧ visits.dropLast.Nodup := by
  cases visits with
  | nil => simp
  | cons later visits => rw [List.dropLast_cons_cons, List.nodup_cons]

theorem mem_dropLast_cons {other next : NodeId} {visits : List NodeId} :
    other ∈ (next :: visits).dropLast ↔ visits ≠ [] ∧ (other = next ∨ other ∈ visits.dropLast) := by
  cases visits with
  | nil => simp
  | cons later visits => simp [List.dropLast_cons_cons]

/-- The weight of a walk is that of a chain, as long as every node on the way stands in a closed
slot. -/
theorem chain_of_walk (hsound : ArenaSound store) {slot : Nat} {closed : Finset Nat}
    {visits : List NodeId} (hid : (store.node id).membership = some ⟨tree, slot⟩)
    (hunasked : store.UnaskedFrom id) (hfollows : (id :: visits).IsChain store.DependsOn)
    (hdistinct : visits.dropLast.Nodup)
    (hclosed : ∀ other ∈ visits.dropLast, ∀ place,
      (store.node other).membership = some ⟨tree, place⟩ → place ∈ closed) :
    (store.graph tree).Chain closed slot (store.walkWeight id visits) := by
  induction visits generalizing id slot closed with
  | nil =>
    rw [walkWeight, ← weight_graph (hsound.nodeIn? hid)]
    exact .alone (hunasked.nothing hsound hid)
  | cons next visits ih =>
    obtain ⟨hdepends, hrest⟩ := List.isChain_cons_cons.mp hfollows
    obtain ⟨hnew, hlater⟩ := nodup_dropLast_cons.mp hdistinct
    obtain ⟨target, htarget, hnext⟩ := (hsound.dependsOn_iff hid).mp hdepends
    rw [← dependencies_graph (hsound.nodeIn? hid)] at htarget
    rw [walkWeight, ← weight_graph (hsound.nodeIn? hid)]
    have hunknown := hunasked.nothing hsound hid
    by_cases hmem : target ∈ closed
    · apply DependencyGraph.Chain.onward hunknown htarget hmem
      refine ih hnext (hunasked.of_dependsOn hdepends) hrest hlater fun other hother place
        hplace => ?_
      apply Finset.mem_erase.mpr
      constructor
      · rintro rfl
        have hsame : other = next := by rw [← hsound.nodeAt hplace, hsound.nodeAt hnext]
        exact hnew (hsame ▸ hother)
      · have hgoesOn : visits ≠ [] := List.ne_nil_of_mem (List.mem_of_mem_dropLast hother)
        exact hclosed other (mem_dropLast_cons.mpr ⟨hgoesOn, Or.inr hother⟩) place hplace
    · -- the walk has come to an open slot, so it ends here
      have hend : visits = [] := by
        by_contra hgoesOn
        exact hmem (hclosed next (mem_dropLast_cons.mpr ⟨hgoesOn, Or.inl rfl⟩) target hnext)
      rw [hend, walkWeight, ← weight_graph (hsound.nodeIn? hnext)]
      exact .stop hunknown htarget hmem

/-- The weight of a chain is that of a walk that meets each closed slot once before its end. -/
theorem walk_of_chain (hsound : ArenaSound store) {slot weight : Nat} {closed : Finset Nat}
    (hchain : (store.graph tree).Chain closed slot weight)
    (hid : (store.node id).membership = some ⟨tree, slot⟩) (hunasked : store.UnaskedFrom id) :
    ∃ visits, (id :: visits).IsChain store.DependsOn ∧ visits.dropLast.Nodup ∧
      (∀ other ∈ visits.dropLast, ∃ place ∈ closed,
        (store.node other).membership = some ⟨tree, place⟩) ∧
      store.walkWeight id visits = weight := by
  have honward : ∀ {id : NodeId} {slot target : Nat}, (store.node id).membership =
      some ⟨tree, slot⟩ →
      target ∈ (store.graph tree).dependencies slot →
      ∃ next, (store.node next).membership = some ⟨tree, target⟩ ∧ store.DependsOn id next := by
    intro id slot target hid htarget
    rw [dependencies_graph (hsound.nodeIn? hid)] at htarget
    obtain ⟨next, -, hnext⟩ := hsound.membership_of_dependency hid htarget
    exact ⟨next, hnext, (hsound.dependsOn_iff hid).mpr ⟨target, htarget, hnext⟩⟩
  induction hchain generalizing id with
  | remembered known =>
    rw [hunasked.nothing hsound hid] at known
    cases known
  | alone unknown =>
    refine ⟨[], List.isChain_singleton id, List.nodup_nil, fun _ h => absurd h List.not_mem_nil, ?_⟩
    rw [walkWeight, weight_graph (hsound.nodeIn? hid)]
  | stop unknown depends isOpen =>
    obtain ⟨next, hnext, hdepends⟩ := honward hid depends
    refine ⟨[next], List.isChain_pair.mpr hdepends, List.nodup_nil,
      fun _ h => absurd h List.not_mem_nil, ?_⟩
    rw [walkWeight, walkWeight, weight_graph (hsound.nodeIn? hid),
      weight_graph (hsound.nodeIn? hnext)]
  | @onward closed slot target weight unknown depends isClosed rest ih =>
    obtain ⟨next, hnext, hdepends⟩ := honward hid depends
    obtain ⟨visits, hfollows, hdistinct, hmet, hweight⟩ := ih hnext (hunasked.of_dependsOn hdepends)
    refine ⟨next :: visits, List.isChain_cons_cons.mpr ⟨hdepends, hfollows⟩, ?_, ?_, ?_⟩
    · refine nodup_dropLast_cons.mpr ⟨fun hagain => ?_, hdistinct⟩
      obtain ⟨place, hplace, hmembership⟩ := hmet next hagain
      rw [hnext] at hmembership
      cases hmembership
      exact Finset.notMem_erase target closed hplace
    · intro other hother
      obtain ⟨-, rfl | hother⟩ := mem_dropLast_cons.mp hother
      · exact ⟨target, isClosed, hnext⟩
      · obtain ⟨place, hplace, hmembership⟩ := hmet other hother
        exact ⟨place, Finset.mem_of_mem_erase hplace, hmembership⟩
    · rw [walkWeight, hweight, weight_graph (hsound.nodeIn? hid)]

theorem isWalk_nil (store : Store) (id : NodeId) : store.IsWalk id [] :=
  ⟨List.isChain_singleton id, List.nodup_nil⟩

theorem IsWalk.eq_nil_of_detached {visits : List NodeId} (h : store.IsWalk id visits)
    (hid : (store.node id).membership = none) : visits = [] := by
  cases visits with
  | nil => rfl
  | cons next visits =>
    have hdepends := (List.isChain_cons_cons.mp h.follows).1
    rw [DependsOn, dependenciesOf_of_detached hid] at hdepends
    exact absurd hdepends List.not_mem_nil

/-- The weights of the walks from a node. -/
def walkWeights (store : Store) (id : NodeId) : Set Nat :=
  {weight | ∃ visits, store.IsWalk id visits ∧ store.walkWeight id visits = weight}

/-- In the graph of its tree, a node answers with the greatest weight of a walk. -/
theorem isGreatest_answer (hsound : ArenaSound store) {slot : Nat}
    (hid : (store.node id).membership = some ⟨tree, slot⟩) (hunasked : store.UnaskedFrom id) :
    IsGreatest (store.walkWeights id) ((store.graph tree).answer (store.slots tree) slot) := by
  constructor
  · obtain ⟨visits, hfollows, hdistinct, hmet, hweight⟩ :=
      walk_of_chain hsound (DependencyGraph.chain_compound _ _ slot) hid hunasked
    refine ⟨visits, ⟨hfollows, nodup_dropLast_cons.mpr ⟨fun hagain => ?_, hdistinct⟩⟩, hweight⟩
    obtain ⟨place, hplace, hmembership⟩ := hmet id hagain
    rw [hid] at hmembership
    cases hmembership
    exact Finset.notMem_erase slot _ hplace
  · rintro weight ⟨visits, hwalk, rfl⟩
    obtain ⟨hnew, hdistinct⟩ := nodup_dropLast_cons.mp hwalk.distinct
    apply DependencyGraph.Chain.le_compound
    refine chain_of_walk hsound hid hunasked hwalk.follows hdistinct fun other hother place
      hplace => ?_
    apply Finset.mem_erase.mpr
    refine ⟨?_, Finset.mem_range.mpr (hsound.slot_lt hplace)⟩
    rintro rfl
    have hsame : other = id := by rw [← hsound.nodeAt hplace, hsound.nodeAt hid]
    exact hnew (hsame ▸ hother)

theorem exists_isGreatest (hsound : ArenaSound store) (hunasked : store.UnaskedFrom id) :
    ∃ severity, store.compound? id = some severity ∧
      IsGreatest (store.walkWeights id) severity.weight := by
  cases hid : (store.node id).membership with
  | none =>
    refine ⟨_, hsound.compound?_of_detached hid, ⟨[], isWalk_nil store id, rfl⟩, ?_⟩
    rintro weight ⟨visits, hwalk, rfl⟩
    rw [hwalk.eq_nil_of_detached hid]
    exact Nat.le_refl _
  | some home =>
    have hle : (store.graph home.tree).answer (store.slots home.tree) home.slot ≤
        Severity.maxWeight :=
      compound_graph_le store home.tree _ home.slot
    refine ⟨_, compound?_eq_answer hsound hid, ?_⟩
    rw [Severity.weight_ofWeight_of_le hle]
    exact isGreatest_answer hsound hid hunasked

/-- With any fuel that exceeds the number of slots of its tree, the evaluation of a node ends. -/
theorem exists_compoundWithin (hsound : ArenaSound store) (id : NodeId) :
    ∃ depth, ∀ fuel ≥ depth, store.compoundWithin fuel [] id = store.compound? id := by
  cases hid : (store.node id).membership with
  | none =>
    refine ⟨1, fun fuel hfuel => ?_⟩
    obtain ⟨fuel, rfl⟩ := Nat.exists_eq_add_of_le' hfuel
    rw [hsound.compound?_of_detached hid]
    simp [compoundWithin, hsound.dependencies_of_detached hid]
  | some home =>
    refine ⟨(store.slots home.tree).card + 1, fun fuel hfuel => ?_⟩
    rw [hsound.compound?_eq hid]
    apply hsound.compoundWithin_eq fuel hid
    · intro target htarget
      simp [htarget]
    · calc ((store.slots home.tree).erase home.slot).card
          ≤ (store.slots home.tree).card := Finset.card_erase_le
        _ < fuel := hfuel

/-- Where nothing is remembered, the evaluation of a node ends by itself, and the answer is the
greatest weight of a walk from the node. -/
theorem compound_of_unaskedFrom (hreachable : Reachable store) (hunasked : store.UnaskedFrom id) :
    ∃ severity, store.compound? id = some severity ∧ (compound id store).1 = severity ∧
      (∃ depth, ∀ fuel ≥ depth, store.compoundWithin fuel [] id = some severity) ∧
      IsGreatest (store.walkWeights id) severity.weight := by
  have hsound := hreachable.arenaSound
  obtain ⟨severity, hanswer, hgreatest⟩ := exists_isGreatest hsound hunasked
  obtain ⟨depth, hdepth⟩ := exists_compoundWithin hsound id
  rw [hanswer] at hdepth
  refine ⟨severity, hanswer, ?_, ⟨depth, hdepth⟩, hgreatest⟩
  change store.compoundNow id = severity
  rw [compoundNow, hanswer, Option.getD_some]

/-- Nodes 1 and 2 depend on each other, and node 2 on itself as well. Both have been asked, which
the touch at the end makes void. -/
def touchedPair : List Operation :=
  mutualPair ++ [.addDependency 2 2, .compound 2, .compound 1, .touch 0]

theorem compound_of_touchedPair :
    ∃ store, Reachable store ∧ (store.node 1).memo = some ⟨3, .high⟩ ∧
      (store.tree 0).revision = 4 ∧ store.UnaskedFrom 1 ∧ store.DependsOn 2 2 ∧
      store.compound? 1 = some .high ∧ IsGreatest (store.walkWeights 1) Severity.high.weight := by
  let before := empty.run (mutualPair ++ [.addDependency 2 2, .compound 2, .compound 1])
  have hbefore : Reachable before := reaches_run .refl _ (by decide +kernel)
  have hreachable : Reachable (empty.run touchedPair) :=
    reaches_run .refl touchedPair (by decide +kernel)
  have hunasked : (empty.run touchedPair).Unasked 0 := unasked_touch hbefore (by decide +kernel)
  have hmember : ((empty.run touchedPair).node 1).tree? = some 0 := by decide +kernel
  have hmemo : ((empty.run touchedPair).node 1).memo = some ⟨3, .high⟩ := by decide +kernel
  have hrevision : ((empty.run touchedPair).tree 0).revision = 4 := by decide +kernel
  have hself : 2 ∈ (empty.run touchedPair).dependenciesOf 2 := by decide +kernel
  have hanswer : (empty.run touchedPair).compound? 1 = some .high := by decide +kernel
  generalize empty.run touchedPair = store at *
  have hfrom : store.UnaskedFrom 1 := hunasked.unaskedFrom hreachable.arenaSound hmember
  obtain ⟨severity, hsame, -, -, hgreatest⟩ := compound_of_unaskedFrom hreachable hfrom
  rw [hanswer] at hsame
  cases hsame
  exact ⟨store, hreachable, hmemo, hrevision, hfrom, hself, hanswer, hgreatest⟩

end RiskScan.Store

import Mathlib.Data.Set.Card
import Mathlib.Logic.Relation
import RiskScan.Proofs.Compound.Evaluation
/-!
# The recurrence of compound severities

Where no cycle of dependencies can be reached, compound weights are given by recursion along the
dependencies. What is remembered must agree with the present dependencies then, although it was
computed when they may have been others. The revision decides: a remembered answer counts only at
the revision at which it was computed, and every step that changes a severity or a dependency within
a tree moves its revision on. Registering does not, and need not, since a node that has just been
registered has no dependencies and no node depends on it yet.
-/

namespace RiskScan

theorem strongest_congr {first second : List Nat} (h : ∀ weight, weight ∈ first ↔ weight ∈ second) :
    strongest first = strongest second := by
  apply Nat.le_antisymm
  · exact strongest_le fun weight hweight => le_strongest ((h weight).mp hweight)
  · exact strongest_le fun weight hweight => le_strongest ((h weight).mpr hweight)

namespace Store

open Relation

def DependsOn (store : Store) (id target : NodeId) : Prop :=
  target ∈ store.dependenciesOf id

/-- No cycle of dependencies can be reached from a node. -/
def AcyclicFrom (store : Store) (id : NodeId) : Prop :=
  ∀ other, ReflTransGen store.DependsOn id other → ¬ TransGen store.DependsOn other other

/-- The nodes that a node depends on, directly or through others. -/
def below (store : Store) (id : NodeId) : Set NodeId :=
  {other | TransGen store.DependsOn id other}

variable {store : Store} {id target : NodeId}

theorem AcyclicFrom.of_dependsOn (h : store.AcyclicFrom id) (hdepends : store.DependsOn id target) :
    store.AcyclicFrom target :=
  fun other hother => h other (.head hdepends hother)

theorem lt_size_of_dependsOn (h : store.DependsOn id target) : id < store.nodes.size := by
  refine Nat.lt_of_not_le fun hge => ?_
  rw [DependsOn, dependenciesOf, dependencies?, node_of_size_le hge] at h
  exact List.not_mem_nil h

theorem finite_below (store : Store) (id : NodeId) : (store.below id).Finite := by
  refine Set.Finite.subset
    ((Finset.range store.nodes.size).biUnion fun node =>
      (store.dependenciesOf node).toFinset).finite_toSet ?_
  intro other hother
  obtain ⟨last, -, hlast⟩ := TransGen.tail'_iff.mp hother
  rw [Finset.mem_coe, Finset.mem_biUnion]
  exact ⟨last, Finset.mem_range.mpr (lt_size_of_dependsOn hlast), List.mem_toFinset.mpr hlast⟩

theorem ncard_below_lt (h : store.AcyclicFrom id) (hdepends : store.DependsOn id target) :
    (store.below target).ncard < (store.below id).ncard := by
  refine Set.ncard_lt_ncard ⟨?_, ?_⟩ (finite_below store id)
  · exact fun other hother => TransGen.head hdepends hother
  · intro hsubset
    exact h target (.single hdepends) (hsubset (TransGen.single hdepends))

/-- The compound weight of a node from which no cycle can be reached: its own weight, raised by the
strongest compound weight of its dependencies if it has any. -/
noncomputable def compoundWeight (store : Store) (id : NodeId) (hacyclic : store.AcyclicFrom id) :
    Nat :=
  if store.dependenciesOf id = [] then (store.node id).severity.weight
  else
    raise (store.node id).severity.weight <| strongest <|
      (store.dependenciesOf id).attach.map fun target =>
        compoundWeight store target.1 (hacyclic.of_dependsOn target.2)
termination_by (store.below id).ncard
decreasing_by exact ncard_below_lt hacyclic target.2

theorem compoundWeight_le (store : Store) (id : NodeId) (hacyclic : store.AcyclicFrom id) :
    store.compoundWeight id hacyclic ≤ Severity.maxWeight := by
  rw [compoundWeight]
  split
  · exact Severity.weight_le _
  · exact raise_le _ _

/-! ### Two stores that agree -/

theorem reflTransGen_lift {α : Type} {first second : α → α → Prop} {P : α → Prop}
    (hstep : ∀ a b, P a → first a b → P b ∧ second a b) {a b : α} (ha : P a)
    (h : ReflTransGen first a b) : P b ∧ ReflTransGen second a b := by
  induction h with
  | refl => exact ⟨ha, .refl⟩
  | tail _ hlast ih =>
    obtain ⟨hnext, hsecond⟩ := hstep _ _ ih.1 hlast
    exact ⟨hnext, ih.2.tail hsecond⟩

/-- Two stores agree on some nodes if these depend on each other only, and each of them has the same
severity and the same dependencies in both stores. -/
structure AgreeOn (P : NodeId → Prop) (before after : Store) : Prop where
  closed (id target : NodeId) : P id → before.DependsOn id target → P target
  severity (id : NodeId) : P id → (after.node id).severity = (before.node id).severity
  dependencies (id : NodeId) : P id → after.dependenciesOf id = before.dependenciesOf id

namespace AgreeOn

variable {P : NodeId → Prop} {before after : Store}

theorem dependsOn (h : AgreeOn P before after) (first second : NodeId) (hfirst : P first)
    (hdepends : before.DependsOn first second) : P second ∧ after.DependsOn first second := by
  refine ⟨h.closed first second hfirst hdepends, ?_⟩
  rwa [DependsOn, h.dependencies first hfirst]

theorem acyclicFrom (h : AgreeOn P before after) (hid : P id) (hacyclic : after.AcyclicFrom id) :
    before.AcyclicFrom id := by
  intro other hother hcycle
  obtain ⟨hP, hother⟩ := reflTransGen_lift h.dependsOn hid hother
  obtain ⟨next, hnext, hback⟩ := TransGen.head'_iff.mp hcycle
  obtain ⟨hPnext, hnext⟩ := h.dependsOn other next hP hnext
  obtain ⟨-, hback⟩ := reflTransGen_lift h.dependsOn hPnext hback
  exact hacyclic other hother (TransGen.head'_iff.mpr ⟨next, hnext, hback⟩)

theorem compoundWeight_eq (h : AgreeOn P before after) (id : NodeId)
    (hbefore : before.AcyclicFrom id) (hid : P id) (hafter : after.AcyclicFrom id) :
    after.compoundWeight id hafter = before.compoundWeight id hbefore := by
  induction id, hbefore using compoundWeight.induct before with
  | case1 id hbefore hnone =>
    have hnoneAfter : after.dependenciesOf id = [] := by rwa [h.dependencies id hid]
    rw [compoundWeight, compoundWeight, if_pos hnone, if_pos hnoneAfter, h.severity id hid]
  | case2 id hbefore hsome ih =>
    have hdependencies := h.dependencies id hid
    have hsomeAfter : after.dependenciesOf id ≠ [] := by rwa [hdependencies]
    rw [compoundWeight, compoundWeight, if_neg hsome, if_neg hsomeAfter, h.severity id hid]
    congr 1
    refine strongest_congr fun weight => ?_
    simp only [List.mem_map, List.mem_attach, true_and, Subtype.exists]
    constructor
    · rintro ⟨target, htarget, rfl⟩
      have hmem : target ∈ before.dependenciesOf id := by rwa [← hdependencies]
      exact ⟨target, hmem, (ih ⟨target, hmem⟩ (h.closed id target hid hmem) _).symm⟩
    · rintro ⟨target, hmem, rfl⟩
      have htarget : target ∈ after.dependenciesOf id := by rwa [hdependencies]
      exact ⟨target, htarget, ih ⟨target, hmem⟩ (h.closed id target hid hmem)
        (hafter.of_dependsOn htarget)⟩

end AgreeOn

end Store

end RiskScan

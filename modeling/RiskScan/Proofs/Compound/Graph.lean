import Mathlib.Data.Finset.Card
import RiskScan.Severity
/-!
# Dependency graphs

Compound severities within one tree depend on the weights in its slots, on the dependencies between
the slots, and on the weights that are remembered. Evaluating a slot closes a cycle when it meets a
slot that is still open; how far it comes depends on the slots that are closed.

The result is a maximum over chains: a chain follows dependencies through closed slots, opening each
of them, and ends at a remembered weight, at an open slot or anywhere else. Two evaluations are
compared chain by chain, so that no comparison has to deal with maxima.
-/

namespace RiskScan

/-- A weight raised by half of another, rounded down. -/
def raise (base weight : Nat) : Nat :=
  min (base + weight / 2) Severity.maxWeight

theorem raise_le (base weight : Nat) : raise base weight ≤ Severity.maxWeight :=
  Nat.min_le_right _ _

theorem le_raise {base : Nat} (hbase : base ≤ Severity.maxWeight) (weight : Nat) :
    base ≤ raise base weight :=
  Nat.le_min.mpr ⟨Nat.le_add_right _ _, hbase⟩

theorem raise_mono {base base' weight weight' : Nat} (hbase : base ≤ base')
    (hweight : weight ≤ weight') : raise base weight ≤ raise base' weight' := by
  unfold raise
  omega

theorem raise_zero {base : Nat} (hbase : base ≤ Severity.maxWeight) : raise base 0 = base := by
  unfold raise
  omega

def strongest (weights : List Nat) : Nat :=
  weights.foldl max 0

theorem strongest_cons (weight : Nat) (weights : List Nat) :
    strongest (weight :: weights) = max weight (strongest weights) := by
  have hfold : ∀ (weights : List Nat) (start : Nat),
      weights.foldl max start = max start (strongest weights) := by
    intro weights
    induction weights with
    | nil => intro start; simp [strongest]
    | cons other weights ih =>
      intro start
      simp only [strongest, List.foldl_cons]
      rw [ih, ih]
      omega
  simp only [strongest, List.foldl_cons]
  rw [hfold, Nat.zero_max]
  rfl

theorem le_strongest {weight : Nat} {weights : List Nat} (h : weight ∈ weights) :
    weight ≤ strongest weights := by
  induction weights with
  | nil => cases h
  | cons other weights ih =>
    rw [strongest_cons]
    rcases List.mem_cons.mp h with rfl | h
    · exact Nat.le_max_left _ _
    · exact Nat.le_trans (ih h) (Nat.le_max_right _ _)

theorem strongest_le {bound : Nat} {weights : List Nat} (h : ∀ weight ∈ weights, weight ≤ bound) :
    strongest weights ≤ bound := by
  induction weights with
  | nil => exact Nat.zero_le bound
  | cons weight weights ih =>
    rw [strongest_cons]
    exact Nat.max_le.mpr ⟨h weight List.mem_cons_self,
      ih fun other hother => h other (List.mem_cons_of_mem weight hother)⟩

theorem strongest_mem {weights : List Nat} (h : weights ≠ []) : strongest weights ∈ weights := by
  induction weights with
  | nil => exact absurd rfl h
  | cons weight weights ih =>
    rw [strongest_cons]
    cases weights with
    | nil => simp [strongest]
    | cons other weights =>
      rcases Nat.le_total weight (strongest (other :: weights)) with hle | hle
      · rw [Nat.max_eq_right hle]
        exact List.mem_cons_of_mem weight (ih (List.cons_ne_nil other weights))
      · rw [Nat.max_eq_left hle]
        exact List.mem_cons_self

/-- What the compound severities within one tree are made from, by slot. -/
@[ext]
structure DependencyGraph where
  weight : Nat → Nat
  weight_le (slot : Nat) : weight slot ≤ Severity.maxWeight
  dependencies : Nat → List Nat
  remembered : Nat → Option Nat

namespace DependencyGraph

/-- The compound weight of an open slot while the slots in `closed` are not being evaluated. -/
def compound (graph : DependencyGraph) (closed : Finset Nat) (slot : Nat) : Nat :=
  match graph.remembered slot with
  | some weight => weight
  | none =>
    raise (graph.weight slot) <| strongest <| (graph.dependencies slot).map fun target =>
      if _h : target ∈ closed then graph.compound (closed.erase target) target
      else graph.weight target
termination_by closed.card
decreasing_by exact Finset.card_erase_lt_of_mem _h

def contribution (graph : DependencyGraph) (closed : Finset Nat) (target : Nat) : Nat :=
  if target ∈ closed then graph.compound (closed.erase target) target else graph.weight target

variable {graph : DependencyGraph} {closed : Finset Nat} {slot target weight : Nat}

theorem compound_of_remembered (h : graph.remembered slot = some weight) :
    graph.compound closed slot = weight := by
  rw [compound, h]

theorem compound_of_not_remembered (h : graph.remembered slot = none) :
    graph.compound closed slot =
      raise (graph.weight slot)
        (strongest ((graph.dependencies slot).map (graph.contribution closed))) := by
  rw [compound, h]
  rfl

/-- The weights of chains from an open slot. -/
inductive Chain (graph : DependencyGraph) : Finset Nat → Nat → Nat → Prop where
  | remembered {closed : Finset Nat} {slot weight : Nat}
      (known : graph.remembered slot = some weight) : Chain graph closed slot weight
  | alone {closed : Finset Nat} {slot : Nat} (unknown : graph.remembered slot = none) :
      Chain graph closed slot (graph.weight slot)
  | stop {closed : Finset Nat} {slot target : Nat} (unknown : graph.remembered slot = none)
      (depends : target ∈ graph.dependencies slot) (isOpen : target ∉ closed) :
      Chain graph closed slot (raise (graph.weight slot) (graph.weight target))
  | onward {closed : Finset Nat} {slot target weight : Nat} (unknown : graph.remembered slot = none)
      (depends : target ∈ graph.dependencies slot) (isClosed : target ∈ closed)
      (rest : Chain graph (closed.erase target) target weight) :
      Chain graph closed slot (raise (graph.weight slot) weight)

theorem raise_contribution_le (h : graph.remembered slot = none)
    (htarget : target ∈ graph.dependencies slot) :
    raise (graph.weight slot) (graph.contribution closed target) ≤ graph.compound closed slot := by
  rw [compound_of_not_remembered h]
  exact raise_mono (Nat.le_refl _) (le_strongest (List.mem_map_of_mem htarget))

/-- No chain is stronger than the result. -/
theorem Chain.le_compound (h : Chain graph closed slot weight) :
    weight ≤ graph.compound closed slot := by
  induction h with
  | remembered known => rw [compound_of_remembered known]
  | alone unknown =>
    rw [compound_of_not_remembered unknown]
    exact le_raise (graph.weight_le _) _
  | @stop closed slot target unknown depends isOpen =>
    have hle : raise (graph.weight slot) (graph.contribution closed target) ≤ _ :=
      raise_contribution_le unknown depends
    rwa [contribution, if_neg isOpen] at hle
  | @onward closed slot target weight unknown depends isClosed rest ih =>
    calc raise (graph.weight slot) weight
        ≤ raise (graph.weight slot) (graph.contribution closed target) := by
          rw [contribution, if_pos isClosed]
          exact raise_mono (Nat.le_refl _) ih
      _ ≤ graph.compound closed slot := raise_contribution_le unknown depends

/-- Some chain is as strong as the result. -/
theorem chain_compound (graph : DependencyGraph) (closed : Finset Nat) (slot : Nat) :
    Chain graph closed slot (graph.compound closed slot) := by
  induction closed using Finset.strongInduction generalizing slot with
  | H closed ih =>
    cases hremembered : graph.remembered slot with
    | some weight =>
      rw [compound_of_remembered hremembered]
      exact .remembered hremembered
    | none =>
      rw [compound_of_not_remembered hremembered]
      by_cases hnone : graph.dependencies slot = []
      · rw [hnone]
        have hchain : Chain graph closed slot (graph.weight slot) := .alone hremembered
        rwa [← raise_zero (graph.weight_le slot)] at hchain
      · have hsome : (graph.dependencies slot).map (graph.contribution closed) ≠ [] := by
          simpa using hnone
        have hmem := strongest_mem hsome
        obtain ⟨target, hdepends, htarget⟩ := List.mem_map.mp hmem
        rw [← htarget, contribution]
        split
        · rename_i hclosed
          exact .onward hremembered hdepends hclosed
            (ih _ (Finset.erase_ssubset hclosed) target)
        · rename_i hopen
          exact .stop hremembered hdepends hopen

theorem weight_le_compound (hremembered : ∀ weight, graph.remembered slot = some weight →
    graph.weight slot ≤ weight) : graph.weight slot ≤ graph.compound closed slot := by
  cases hslot : graph.remembered slot with
  | some weight =>
    rw [compound_of_remembered hslot]
    exact hremembered weight hslot
  | none => exact (Chain.alone hslot).le_compound

theorem compound_le (hremembered : ∀ weight, graph.remembered slot = some weight →
    weight ≤ Severity.maxWeight) : graph.compound closed slot ≤ Severity.maxWeight := by
  cases hslot : graph.remembered slot with
  | some weight =>
    rw [compound_of_remembered hslot]
    exact hremembered weight hslot
  | none =>
    rw [compound_of_not_remembered hslot]
    exact raise_le _ _

end DependencyGraph

end RiskScan

import RiskScan.Proofs.Compound.Asking
/-!
# How far asking in turn can go

The greatest answer that a slot can give is what the recurrence makes of the first answers of its
dependencies. It may exceed the first answer of the slot, but both have the same half. This is
because half of a weight is all that a cycle passes on. If the answer of a slot has the same half as
its weight, then it comes back around a cycle as its weight does, and that has been counted where
the cycle was closed; otherwise it exceeds its weight by as much as a dependency can add.

So the recurrence is solved by the greatest answers. The greatest weight is even, so a slot answers
with it always or never.
-/

namespace RiskScan

theorem raise_congr_half {base weight weight' : Nat} (h : weight / 2 = weight' / 2) :
    raise base weight = raise base weight' := by
  rw [raise, raise, h]

/-- A slot that depends on itself is not raised by its own answer. -/
theorem raise_self_le {weight answer : Nat} (hweight : weight ≤ Severity.maxWeight)
    (hanswer : answer ≤ Severity.maxWeight) (hopen : raise weight weight ≤ answer) :
    raise weight answer ≤ answer := by
  have hmax : Severity.maxWeight = 4 := rfl
  unfold raise at *
  omega

theorem half_strongest (weights : List Nat) :
    strongest weights / 2 = strongest (weights.map (· / 2)) := by
  induction weights with
  | nil => rfl
  | cons weight weights ih =>
    rw [List.map_cons, strongest_cons, strongest_cons, ← ih]
    omega

theorem strongest_congr_half {slots : List Nat} {first second : Nat → Nat}
    (h : ∀ slot ∈ slots, first slot / 2 = second slot / 2) :
    strongest (slots.map first) / 2 = strongest (slots.map second) / 2 := by
  have hhalves : slots.map ((· / 2) ∘ first) = slots.map ((· / 2) ∘ second) :=
    List.map_congr_left h
  rw [half_strongest, half_strongest, List.map_map, List.map_map, hhalves]

/-- A weight raised along some bases, the last one first. -/
def through (bases : List Nat) (weight : Nat) : Nat :=
  bases.foldr raise weight

theorem through_mono (bases : List Nat) {weight weight' : Nat} (h : weight ≤ weight') :
    through bases weight ≤ through bases weight' := by
  induction bases with
  | nil => exact h
  | cons base bases ih => exact raise_mono (Nat.le_refl base) ih

theorem through_congr_half {bases : List Nat} (hbases : bases ≠ []) {weight weight' : Nat}
    (h : weight / 2 = weight' / 2) : through bases weight = through bases weight' := by
  induction bases with
  | nil => exact absurd rfl hbases
  | cons base bases ih =>
    cases bases with
    | nil => exact raise_congr_half h
    | cons other bases =>
      have hrest := ih (List.cons_ne_nil other bases)
      exact congrArg (raise base) hrest

/-- A dependency adds nothing to the half of an answer, unless this half is that of the weight. -/
theorem half_raise_le {weight answer value : Nat} (hweight : weight ≤ answer)
    (hvalue : value ≤ Severity.maxWeight)
    (hback : weight / 2 = answer / 2 → raise weight value ≤ answer) :
    raise weight value / 2 ≤ answer / 2 := by
  by_cases hhalf : weight / 2 = answer / 2
  · exact Nat.div_le_div_right (hback hhalf)
  · have hmax : Severity.maxWeight = 4 := rfl
    unfold raise
    omega

namespace DependencyGraph

variable {graph fresh : DependencyGraph} {all closed rest : Finset Nat}
  {slot last target weight : Nat} {bases : List Nat}

/-! ### Chains that lead to a slot -/

/-- Dependencies lead from an open slot to `last`, over slots with these bases, and leave the slots
in `rest` closed. -/
inductive Leads (graph : DependencyGraph) (last : Nat) :
    Finset Nat → Nat → List Nat → Finset Nat → Prop where
  | last {closed : Finset Nat} {slot : Nat} (unknown : graph.remembered slot = none)
      (depends : last ∈ graph.dependencies slot) (isClosed : last ∈ closed) :
      Leads graph last closed slot [graph.weight slot] (closed.erase last)
  | onward {closed rest : Finset Nat} {slot target : Nat} {bases : List Nat}
      (unknown : graph.remembered slot = none) (depends : target ∈ graph.dependencies slot)
      (isClosed : target ∈ closed) (other : target ≠ last)
      (leads : Leads graph last (closed.erase target) target bases rest) :
      Leads graph last closed slot (graph.weight slot :: bases) rest

namespace Leads

theorem ne_nil (h : Leads graph last closed slot bases rest) : bases ≠ [] := by
  cases h with
  | last _ _ _ => exact List.cons_ne_nil _ _
  | onward _ _ _ _ _ => exact List.cons_ne_nil _ _

theorem subset (h : Leads graph last closed slot bases rest) : rest ⊆ closed.erase last := by
  induction h with
  | last _ _ _ => exact Finset.Subset.refl _
  | onward _ _ _ _ _ ih =>
    exact ih.trans (Finset.erase_subset_erase last (Finset.erase_subset _ _))

theorem chain_stop (h : Leads graph last closed slot bases rest) :
    Chain graph (closed.erase last) slot (through bases (graph.weight last)) := by
  induction h with
  | @last closed slot unknown depends isClosed =>
    exact .stop unknown depends (Finset.notMem_erase last closed)
  | @onward closed rest slot target bases unknown depends isClosed other _ ih =>
    refine .onward unknown depends (Finset.mem_erase.mpr ⟨other, isClosed⟩) ?_
    rwa [Finset.erase_right_comm]

end Leads

/-- A chain avoids a slot or leads to it. -/
theorem Chain.avoids_or_leads (h : Chain graph closed slot weight) (hne : slot ≠ last) :
    Chain graph (closed.erase last) slot weight ∨
      ∃ bases rest value, Leads graph last closed slot bases rest ∧ Chain graph rest last value ∧
        weight = through bases value := by
  induction h with
  | remembered known => exact Or.inl (.remembered known)
  | alone unknown => exact Or.inl (.alone unknown)
  | stop unknown depends isOpen =>
    exact Or.inl (.stop unknown depends fun hmem => isOpen (Finset.mem_of_mem_erase hmem))
  | @onward closed slot target weight unknown depends isClosed hrest ih =>
    by_cases htarget : target = last
    · subst htarget
      exact Or.inr ⟨_, _, weight, .last unknown depends isClosed, hrest, rfl⟩
    · rcases ih htarget with havoids | ⟨bases, rest, value, hleads, hvalue, rfl⟩
      · refine Or.inl (.onward unknown depends (Finset.mem_erase.mpr ⟨htarget, isClosed⟩) ?_)
        rwa [Finset.erase_right_comm]
      · exact Or.inr ⟨_, rest, value, .onward unknown depends isClosed htarget hleads, hvalue, rfl⟩

/-! ### The greatest answers -/

/-- What the recurrence makes of the answers of the dependencies of a slot. -/
def greatest (graph : DependencyGraph) (all : Finset Nat) (slot : Nat) : Nat :=
  raise (graph.weight slot) (strongest ((graph.dependencies slot).map (graph.answer all)))

/-- The greatest answer of a slot is its weight, raised by an answer if it depends on any. -/
theorem greatest_cases (graph : DependencyGraph) (all : Finset Nat) (slot : Nat) :
    graph.greatest all slot = graph.weight slot ∨
      ∃ target ∈ graph.dependencies slot,
        graph.greatest all slot = raise (graph.weight slot) (graph.answer all target) := by
  unfold greatest
  by_cases hnone : graph.dependencies slot = []
  · rw [hnone, List.map_nil]
    exact Or.inl (raise_zero (graph.weight_le slot))
  · have hsome : (graph.dependencies slot).map (graph.answer all) ≠ [] := by simpa using hnone
    obtain ⟨target, htarget, heq⟩ := List.mem_map.mp (strongest_mem hsome)
    exact Or.inr ⟨target, htarget, by rw [heq]⟩

section Fresh

variable (hnothing : ∀ slot, fresh.remembered slot = none)

include hnothing

theorem answer_eq (slot : Nat) : fresh.answer all slot = raise (fresh.weight slot)
    (strongest ((fresh.dependencies slot).map (fresh.contribution (all.erase slot)))) :=
  compound_of_not_remembered (hnothing slot)

theorem weight_le_answer (slot : Nat) : fresh.weight slot ≤ fresh.answer all slot :=
  (Chain.alone (hnothing slot)).le_compound

theorem answer_le_max (slot : Nat) : fresh.answer all slot ≤ Severity.maxWeight :=
  (Asked.refl hnothing all).answer_le_max slot

theorem half_raise_answer_le (htarget : target ∈ fresh.dependencies slot) (hall : target ∈ all) :
    raise (fresh.weight slot) (fresh.answer all target) / 2 ≤ fresh.answer all slot / 2 := by
  refine half_raise_le (weight_le_answer hnothing slot) (answer_le_max hnothing target)
    fun hhalf => ?_
  have hraise : raise (fresh.weight slot) (fresh.contribution (all.erase slot) target) ≤
      fresh.answer all slot := raise_contribution_le (hnothing slot) htarget
  by_cases hself : target = slot
  · subst hself
    rw [contribution, if_neg (Finset.notMem_erase target all)] at hraise
    rwa [← raise_congr_half hhalf]
  · rw [contribution, if_pos (Finset.mem_erase.mpr ⟨hself, hall⟩),
      Finset.erase_right_comm] at hraise
    refine Nat.le_trans (raise_mono (Nat.le_refl _) ?_) hraise
    have hanswer : Chain fresh (all.erase target) target (fresh.answer all target) :=
      chain_compound fresh _ target
    rcases hanswer.avoids_or_leads hself with havoids | ⟨bases, rest, value, hleads, hvalue, heq⟩
    · exact havoids.le_compound
    · -- The answer of the dependency comes back to the slot, with an answer of the slot at most.
      have hrest : rest ⊆ all.erase slot :=
        hleads.subset.trans (Finset.erase_subset_erase slot (Finset.erase_subset _ _))
      have hvalueLe : value ≤ fresh.answer all slot := by
        calc value ≤ fresh.compound rest slot := hvalue.le_compound
          _ ≤ fresh.answer all slot := compound_le_answer (Asked.refl hnothing all).weight_le hrest
      calc fresh.answer all target = through bases value := heq
        _ ≤ through bases (fresh.answer all slot) := through_mono bases hvalueLe
        _ = through bases (fresh.weight slot) := (through_congr_half hleads.ne_nil hhalf).symm
        _ ≤ fresh.compound ((all.erase target).erase slot) target := hleads.chain_stop.le_compound

theorem answer_le_greatest (slot : Nat) : fresh.answer all slot ≤ fresh.greatest all slot := by
  rw [answer_eq hnothing, greatest]
  refine raise_mono (Nat.le_refl _) (strongest_map_mono fun target _ => ?_)
  exact contribution_le_answer (Asked.refl hnothing all).weight_le (Finset.erase_subset _ _)

theorem compound_ask_self (all closed : Finset Nat) (slot : Nat) :
    (fresh.ask all slot).compound closed slot = fresh.answer all slot := by
  unfold ask
  split
  · rename_i hnone
    rw [answer, compound_of_dependencies_nil (hnothing slot) hnone,
      compound_of_dependencies_nil (hnothing slot) hnone]
  · exact compound_of_remembered (Function.update_self slot _ _)

/-- Once a dependency has been asked, it raises the answer of a slot by all that it answers
itself. -/
theorem raise_le_answer_ask (htarget : target ∈ fresh.dependencies slot) (hall : target ∈ all)
    (hne : target ≠ slot) :
    raise (fresh.weight slot) (fresh.answer all target) ≤
      (fresh.ask all target).answer all slot := by
  have hremembered : (fresh.ask all target).remembered slot = none := by
    cases hknown : (fresh.ask all target).remembered slot with
    | none => rfl
    | some weight =>
      rcases remembered_ask hknown with hold | ⟨hsame, -⟩
      · rw [hnothing] at hold
        cases hold
      · exact absurd hsame.symm hne
  have hdepends : target ∈ (fresh.ask all target).dependencies slot := by
    rwa [dependencies_ask]
  have hraise : raise ((fresh.ask all target).weight slot)
      ((fresh.ask all target).contribution (all.erase slot) target) ≤ _ :=
    raise_contribution_le hremembered hdepends
  rwa [weight_ask, contribution, if_pos (Finset.mem_erase.mpr ⟨hne, hall⟩),
    compound_ask_self hnothing] at hraise

variable (hall : ∀ slot, ∀ target ∈ fresh.dependencies slot, target ∈ all)

include hall

theorem half_greatest (slot : Nat) : fresh.greatest all slot / 2 = fresh.answer all slot / 2 := by
  apply Nat.le_antisymm
  · rcases fresh.greatest_cases all slot with heq | ⟨target, htarget, heq⟩
    · rw [heq]
      exact Nat.div_le_div_right (weight_le_answer hnothing slot)
    · rw [heq]
      exact half_raise_answer_le hnothing htarget (hall slot target htarget)
  · exact Nat.div_le_div_right (answer_le_greatest hnothing slot)

theorem solution_greatest : Solution fresh (fresh.greatest all) := by
  intro slot
  have hhalves : strongest ((fresh.dependencies slot).map (fresh.answer all)) / 2 =
      strongest ((fresh.dependencies slot).map (fresh.greatest all)) / 2 :=
    strongest_congr_half fun target _ => (half_greatest hnothing hall target).symm
  exact raise_congr_half hhalves

/-- A slot answers with the greatest weight always or never. -/
theorem answer_askAll_eq_max (slots : List Nat) (slot : Nat) :
    (fresh.askAll all slots).answer all slot = Severity.maxWeight ↔
      fresh.answer all slot = Severity.maxWeight := by
  have hle : (fresh.askAll all slots).answer all slot ≤ fresh.greatest all slot :=
    (solution_greatest hnothing hall).answer_askAll_le hnothing slots slot
  have hge := ((Asked.refl hnothing all).askAll slots).first_le slot
  have hhalf := half_greatest hnothing hall slot
  have hfirst : fresh.answer all slot ≤ Severity.maxWeight := answer_le_max hnothing slot
  have hlast : fresh.greatest all slot ≤ Severity.maxWeight := raise_le _ _
  have hmax : Severity.maxWeight = 4 := rfl
  omega

/-- A slot gives the same answer, whatever has been asked before, exactly if its first answer is the
greatest that it can give. -/
theorem answer_askAll_iff (slot : Nat) :
    (∀ slots : List Nat, (∀ asked ∈ slots, asked ∈ all) →
      (fresh.askAll all slots).answer all slot = fresh.answer all slot) ↔
    fresh.answer all slot = fresh.greatest all slot := by
  have hle : fresh.answer all slot ≤ fresh.greatest all slot := answer_le_greatest hnothing slot
  constructor
  · intro hsame
    apply Nat.le_antisymm hle
    rcases fresh.greatest_cases all slot with heq | ⟨target, htarget, heq⟩
    · rw [heq]
      exact weight_le_answer hnothing slot
    · have htargetAll := hall slot target htarget
      rw [heq]
      by_cases hself : target = slot
      · subst hself
        have hopen : raise (fresh.weight target) (fresh.contribution (all.erase target) target) ≤
            fresh.answer all target := raise_contribution_le (hnothing target) htarget
        rw [contribution, if_neg (Finset.notMem_erase target all)] at hopen
        exact raise_self_le (fresh.weight_le target) (answer_le_max hnothing target) hopen
      · rw [← hsame [target] (by simpa using htargetAll)]
        exact raise_le_answer_ask hnothing htarget htargetAll hself
  · intro hgreatest slots _
    apply Nat.le_antisymm
    · rw [hgreatest]
      exact (solution_greatest hnothing hall).answer_askAll_le hnothing slots slot
    · exact ((Asked.refl hnothing all).askAll slots).first_le slot

end Fresh

end DependencyGraph

end RiskScan

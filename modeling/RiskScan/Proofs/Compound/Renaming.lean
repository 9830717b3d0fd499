import RiskScan.Proofs.Compound.Rounding
/-!
# Renamed slots

Compound weights do not depend on where nodes stand. If some slots of one graph depend on each other
only, and occur in another graph under other names, then they answer the same there, as long as
nothing is remembered. In this way a tree is compared with what it was before it grew, and a part of
a tree with the same part of another one.
-/

namespace RiskScan.DependencyGraph

/-- A graph when nothing is remembered. -/
def forget (graph : DependencyGraph) : DependencyGraph :=
  { graph with remembered := fun _ => none }

/-- Some slots of one graph, which depend on each other only, occur in another graph under other
names. -/
structure Occurs (P : Nat → Prop) (rename : Nat → Nat) (part whole : DependencyGraph) : Prop where
  injective {first second : Nat} : P first → P second → rename first = rename second →
    first = second
  closed {slot target : Nat} : P slot → target ∈ part.dependencies slot → P target
  weight {slot : Nat} : P slot → whole.weight (rename slot) = part.weight slot
  dependencies {slot : Nat} : P slot →
    whole.dependencies (rename slot) = (part.dependencies slot).map rename

namespace Occurs

variable {P : Nat → Prop} {rename : Nat → Nat} {part whole : DependencyGraph}
  {all all' closed closed' : Finset Nat} {slot : Nat}

/-- Opening a slot opens its counterpart and no other. -/
theorem mem_erase_iff (h : Occurs P rename part whole)
    (hclosed : ∀ slot, P slot → (rename slot ∈ closed' ↔ slot ∈ closed)) {target : Nat}
    (htarget : P target) :
    ∀ slot, P slot →
    (rename slot ∈ closed'.erase (rename target) ↔ slot ∈ closed.erase target) := by
  intro slot hslot
  rw [Finset.mem_erase, Finset.mem_erase, hclosed slot hslot]
  refine and_congr_left fun _ => not_congr ⟨h.injective hslot htarget, ?_⟩
  rintro rfl
  rfl

theorem compound_eq (h : Occurs P rename part whole)
    (hclosed : ∀ slot, P slot → (rename slot ∈ closed' ↔ slot ∈ closed)) (hslot : P slot) :
    whole.forget.compound closed' (rename slot) = part.forget.compound closed slot := by
  induction closed using Finset.strongInduction generalizing closed' slot with
  | H closed ih =>
    rw [compound_of_not_remembered rfl, compound_of_not_remembered rfl]
    change raise (whole.weight (rename slot))
      (strongest ((whole.dependencies (rename slot)).map _)) =
      raise (part.weight slot) (strongest ((part.dependencies slot).map _))
    rw [h.weight hslot, h.dependencies hslot, List.map_map]
    congr 2
    refine List.map_congr_left fun target htarget => ?_
    have hP : P target := h.closed hslot htarget
    rw [Function.comp_apply, contribution, contribution]
    by_cases hmem : target ∈ closed
    · rw [if_pos hmem, if_pos ((hclosed target hP).mpr hmem)]
      exact ih _ (Finset.erase_ssubset hmem) (h.mem_erase_iff hclosed hP) hP
    · rw [if_neg hmem, if_neg (mt (hclosed target hP).mp hmem)]
      exact h.weight hP

theorem answer_eq (h : Occurs P rename part whole)
    (hall : ∀ slot, P slot → (rename slot ∈ all' ↔ slot ∈ all)) (hslot : P slot) :
    whole.forget.answer all' (rename slot) = part.forget.answer all slot :=
  h.compound_eq (h.mem_erase_iff hall hslot) hslot

theorem greatest_eq (h : Occurs P rename part whole)
    (hall : ∀ slot, P slot → (rename slot ∈ all' ↔ slot ∈ all)) (hslot : P slot) :
    whole.forget.greatest all' (rename slot) = part.forget.greatest all slot := by
  change raise (whole.weight (rename slot)) (strongest ((whole.dependencies (rename slot)).map _)) =
    raise (part.weight slot) (strongest ((part.dependencies slot).map _))
  rw [h.weight hslot, h.dependencies hslot, List.map_map]
  congr 2
  exact List.map_congr_left fun target htarget => h.answer_eq hall (h.closed hslot htarget)

end Occurs

end RiskScan.DependencyGraph

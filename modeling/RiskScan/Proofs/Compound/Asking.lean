import Mathlib.Logic.Function.Basic
import RiskScan.Proofs.Compound.Graph
/-!
# Asking slots in turn

A slot that is asked remembers its answer, and later evaluations stop at it. What it remembers was
evaluated with every other slot closed, so it is never less than an evaluation in the middle of
another would have given, and it may be more: asking in turn can only raise answers.

How far they can be raised is bounded by every solution of the recurrence in which each weight is
its own base raised by the strongest weight it depends on, cycles or not.
-/

namespace RiskScan

theorem strongest_map_mono {slots : List Nat} {first second : Nat → Nat}
    (h : ∀ slot ∈ slots, first slot ≤ second slot) :
    strongest (slots.map first) ≤ strongest (slots.map second) := by
  apply strongest_le
  intro weight hweight
  obtain ⟨slot, hslot, rfl⟩ := List.mem_map.mp hweight
  calc first slot ≤ second slot := h slot hslot
    _ ≤ strongest (slots.map second) := le_strongest (List.mem_map_of_mem hslot)

namespace DependencyGraph

variable {graph fresh : DependencyGraph} {all closed : Finset Nat} {slot target weight : Nat}

/-- The weight that a slot is answered with when it is asked itself. -/
def answer (graph : DependencyGraph) (all : Finset Nat) (slot : Nat) : Nat :=
  graph.compound (all.erase slot) slot

def ask (graph : DependencyGraph) (all : Finset Nat) (slot : Nat) : DependencyGraph :=
  if graph.dependencies slot = [] then graph
  else { graph with
    remembered := Function.update graph.remembered slot (some (graph.answer all slot)) }

def askAll (graph : DependencyGraph) (all : Finset Nat) (slots : List Nat) : DependencyGraph :=
  slots.foldl (fun graph slot => graph.ask all slot) graph

/-- The recurrence of compound weights holds in every slot. -/
def Solution (graph : DependencyGraph) (weights : Nat → Nat) : Prop :=
  ∀ slot, weights slot =
    raise (graph.weight slot) (strongest ((graph.dependencies slot).map weights))

/-- A graph that slots of another one, in which nothing is remembered, may have been asked to
get. -/
structure Asked (fresh : DependencyGraph) (all : Finset Nat) (graph : DependencyGraph) : Prop where
  nothing (slot : Nat) : fresh.remembered slot = none
  weight : graph.weight = fresh.weight
  dependencies : graph.dependencies = fresh.dependencies
  answer_le {slot weight : Nat} : graph.remembered slot = some weight →
    fresh.answer all slot ≤ weight ∧ weight ≤ Severity.maxWeight

theorem remembered_ask {other : Nat} (h : (graph.ask all slot).remembered other = some weight) :
    graph.remembered other = some weight ∨ other = slot ∧ weight = graph.answer all slot := by
  unfold ask at h
  split at h
  · exact Or.inl h
  · dsimp only at h
    by_cases hother : other = slot
    · rw [hother, Function.update_self] at h
      exact Or.inr ⟨hother, (Option.some.inj h).symm⟩
    · rw [Function.update_of_ne hother] at h
      exact Or.inl h

@[simp] theorem weight_ask (graph : DependencyGraph) (all : Finset Nat) (slot : Nat) :
    (graph.ask all slot).weight = graph.weight := by
  unfold ask
  split <;> rfl

@[simp] theorem dependencies_ask (graph : DependencyGraph) (all : Finset Nat) (slot : Nat) :
    (graph.ask all slot).dependencies = graph.dependencies := by
  unfold ask
  split <;> rfl

theorem compound_of_dependencies_nil (hremembered : graph.remembered slot = none)
    (hnone : graph.dependencies slot = []) : graph.compound closed slot = graph.weight slot := by
  rw [compound_of_not_remembered hremembered, hnone]
  exact raise_zero (graph.weight_le slot)

/-! ### Asking raises answers -/

/-- A chain in one graph is no stronger than the result in another one that remembers more. -/
theorem Chain.le_compound_of {before after : DependencyGraph}
    (hweight : after.weight = before.weight)
    (hdependencies : after.dependencies = before.dependencies)
    (hbase : ∀ slot weight, before.remembered slot = some weight → before.weight slot ≤ weight)
    (hunknown : ∀ slot, after.remembered slot = none → before.remembered slot = none)
    (hknown : ∀ slot weight, after.remembered slot = some weight →
      ∀ closed ⊆ all.erase slot, before.compound closed slot ≤ weight)
    (h : Chain before closed slot weight) (hclosed : closed ⊆ all.erase slot)
    {closed' : Finset Nat} (hsubset : closed ⊆ closed') :
    weight ≤ after.compound closed' slot := by
  have hstop : ∀ {closed closed' : Finset Nat} {slot weight answer : Nat},
      Chain before closed slot weight → closed ⊆ all.erase slot →
      after.remembered slot = some answer → weight ≤ after.compound closed' slot := by
    intro closed closed' slot weight answer hchain hclosed hafter
    rw [compound_of_remembered hafter]
    calc weight ≤ before.compound closed slot := hchain.le_compound
      _ ≤ answer := hknown slot answer hafter closed hclosed
  have hleast : ∀ (closed' : Finset Nat) (slot : Nat),
      before.weight slot ≤ after.compound closed' slot := by
    intro closed' slot
    cases hafter : after.remembered slot with
    | some answer =>
      rw [compound_of_remembered hafter]
      calc before.weight slot ≤ before.compound ∅ slot := weight_le_compound (hbase slot)
        _ ≤ answer := hknown slot answer hafter ∅ (Finset.empty_subset _)
    | none =>
      have hchain : Chain after closed' slot (after.weight slot) := .alone hafter
      rw [← hweight]
      exact hchain.le_compound
  induction h generalizing closed' with
  | @remembered closed slot weight known =>
    cases hafter : after.remembered slot with
    | some answer => exact hstop (.remembered known) hclosed hafter
    | none =>
      rw [hunknown slot hafter] at known
      cases known
  | @alone closed slot unknown => exact hleast closed' slot
  | @stop closed slot target unknown depends isOpen =>
    cases hafter : after.remembered slot with
    | some answer => exact hstop (.stop unknown depends isOpen) hclosed hafter
    | none =>
      have hcontribution : before.weight target ≤ after.contribution closed' target := by
        unfold contribution
        split
        · exact hleast _ target
        · rw [hweight]
      calc raise (before.weight slot) (before.weight target)
          ≤ raise (after.weight slot) (after.contribution closed' target) := by
            rw [hweight]
            exact raise_mono (Nat.le_refl _) hcontribution
        _ ≤ after.compound closed' slot := raise_contribution_le hafter (by rwa [hdependencies])
  | @onward closed slot target weight unknown depends isClosed rest ih =>
    cases hafter : after.remembered slot with
    | some answer => exact hstop (.onward unknown depends isClosed rest) hclosed hafter
    | none =>
      have hall : closed.erase target ⊆ all.erase target :=
        Finset.erase_subset_erase target (hclosed.trans (Finset.erase_subset _ _))
      have hrest := ih hall (Finset.erase_subset_erase target hsubset)
      calc raise (before.weight slot) weight
          ≤ raise (after.weight slot) (after.contribution closed' target) := by
            rw [hweight, contribution, if_pos (hsubset isClosed)]
            exact raise_mono (Nat.le_refl _) hrest
        _ ≤ after.compound closed' slot := raise_contribution_le hafter (by rwa [hdependencies])

theorem compound_le_answer (hbase : ∀ slot weight, graph.remembered slot = some weight →
    graph.weight slot ≤ weight) (hclosed : closed ⊆ all.erase slot) :
    graph.compound closed slot ≤ graph.answer all slot := by
  refine (chain_compound graph closed slot).le_compound_of rfl rfl hbase (fun _ => id) ?_
    hclosed hclosed
  intro other weight hother closed' _
  rw [compound_of_remembered hother]

theorem contribution_le_answer (hbase : ∀ slot weight, graph.remembered slot = some weight →
    graph.weight slot ≤ weight) (hclosed : closed ⊆ all) :
    graph.contribution closed target ≤ graph.answer all target := by
  unfold contribution
  split
  · exact compound_le_answer hbase (Finset.erase_subset_erase target hclosed)
  · exact weight_le_compound (hbase target)

namespace Asked

theorem refl (hnothing : ∀ slot, fresh.remembered slot = none) (all : Finset Nat) :
    Asked fresh all fresh where
  nothing := hnothing
  weight := rfl
  dependencies := rfl
  answer_le h := by
    rw [hnothing] at h
    cases h

theorem weight_le (h : Asked fresh all graph) (slot weight : Nat)
    (hremembered : graph.remembered slot = some weight) : graph.weight slot ≤ weight := by
  rw [h.weight]
  calc fresh.weight slot ≤ fresh.answer all slot := (Chain.alone (h.nothing slot)).le_compound
    _ ≤ weight := (h.answer_le hremembered).1

theorem answer_le_max (h : Asked fresh all graph) (slot : Nat) :
    graph.answer all slot ≤ Severity.maxWeight :=
  compound_le fun _ hremembered => (h.answer_le hremembered).2

theorem first_le (h : Asked fresh all graph) (slot : Nat) :
    fresh.answer all slot ≤ graph.answer all slot := by
  have hfresh : ∀ slot weight, fresh.remembered slot = some weight →
      fresh.weight slot ≤ weight := by
    intro slot weight hremembered
    rw [h.nothing] at hremembered
    cases hremembered
  refine (chain_compound fresh _ slot).le_compound_of h.weight h.dependencies hfresh
    (fun other _ => h.nothing other) ?_ (Finset.Subset.refl _) (Finset.Subset.refl _)
  intro other weight hother closed hclosed
  calc fresh.compound closed other ≤ fresh.answer all other := compound_le_answer hfresh hclosed
    _ ≤ weight := (h.answer_le hother).1

theorem ask (h : Asked fresh all graph) (slot : Nat) : Asked fresh all (graph.ask all slot) where
  nothing := h.nothing
  weight := (weight_ask graph all slot).trans h.weight
  dependencies := (dependencies_ask graph all slot).trans h.dependencies
  answer_le {other weight} hremembered := by
    rcases remembered_ask hremembered with hold | ⟨rfl, rfl⟩
    · exact h.answer_le hold
    · exact ⟨h.first_le other, h.answer_le_max other⟩

theorem askAll (h : Asked fresh all graph) (slots : List Nat) :
    Asked fresh all (graph.askAll all slots) := by
  induction slots generalizing graph with
  | nil => exact h
  | cons slot slots ih => exact ih (h.ask slot)

end Asked

/-! ### Solutions bound answers -/

namespace Solution

variable {weights : Nat → Nat}

theorem weight_le (h : Solution graph weights) (slot : Nat) : graph.weight slot ≤ weights slot := by
  rw [h slot]
  exact le_raise (graph.weight_le slot) _

theorem raise_le (h : Solution graph weights) (htarget : target ∈ graph.dependencies slot) :
    raise (graph.weight slot) (weights target) ≤ weights slot := by
  rw [h slot]
  exact raise_mono (Nat.le_refl _) (le_strongest (List.mem_map_of_mem htarget))

theorem chain_le (h : Solution graph weights)
    (hremembered : ∀ slot weight, graph.remembered slot = some weight → weight ≤ weights slot)
    (hchain : Chain graph closed slot weight) : weight ≤ weights slot := by
  induction hchain with
  | remembered known => exact hremembered _ _ known
  | alone _ => exact h.weight_le _
  | @stop _ slot target _ depends _ =>
    calc raise (graph.weight slot) (graph.weight target)
        ≤ raise (graph.weight slot) (weights target) :=
          raise_mono (Nat.le_refl _) (h.weight_le target)
      _ ≤ weights slot := h.raise_le depends
  | @onward _ slot target weight _ depends _ _ ih =>
    calc raise (graph.weight slot) weight
        ≤ raise (graph.weight slot) (weights target) := raise_mono (Nat.le_refl _) ih
      _ ≤ weights slot := h.raise_le depends

theorem of_asked (h : Solution fresh weights) (hasked : Asked fresh all graph) :
    Solution graph weights := by
  intro slot
  rw [hasked.weight, hasked.dependencies]
  exact h slot

theorem remembered_askAll_le (h : Solution fresh weights) (hasked : Asked fresh all graph)
    (hremembered : ∀ slot weight, graph.remembered slot = some weight → weight ≤ weights slot)
    (slots : List Nat) (slot weight : Nat)
    (hslot : (graph.askAll all slots).remembered slot = some weight) : weight ≤ weights slot := by
  induction slots generalizing graph with
  | nil => exact hremembered slot weight hslot
  | cons first slots ih =>
    refine ih (hasked.ask first) ?_ hslot
    intro other weight hother
    rcases remembered_ask hother with hold | ⟨rfl, rfl⟩
    · exact hremembered other weight hold
    · exact (h.of_asked hasked).chain_le hremembered (chain_compound graph _ other)

/-- However many slots have been asked, no answer exceeds the weight in a solution. -/
theorem answer_askAll_le (h : Solution fresh weights)
    (hnothing : ∀ slot, fresh.remembered slot = none) (slots : List Nat) (slot : Nat) :
    (fresh.askAll all slots).answer all slot ≤ weights slot := by
  have hstart := Asked.refl hnothing all
  refine (h.of_asked (hstart.askAll slots)).chain_le ?_ (chain_compound _ _ slot)
  refine h.remembered_askAll_le hstart ?_ slots
  intro other weight hknown
  rw [hnothing] at hknown
  cases hknown

end Solution

end DependencyGraph

end RiskScan

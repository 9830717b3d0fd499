import RiskScan.Engine.Trunk
import RiskScan.Proofs.Engine.Attaching
/-!
# What an analysis adds

An analysis finds a trunk standing in some store, and adds to its tree. What it adds can be told
without the store: which marks take the next slots, how many nodes are attached to the branch, and
whether the analysis fails in the end. Analyses that are done one after the other add one thing
behind the other.
-/

namespace RiskScan

open Store

namespace Engine

/-- A store has the tree and the four branches of a trunk, as ordinary operations have left them. -/
structure Trunk.Stands (trunk : Trunk) (store : Store) : Prop where
  reachable : OrdinarilyReachable store
  planted : trunk.tree < store.trees.size
  root : (store.tree trunk.tree).root = trunk.branches.root
  branch (branch : Branch) :
    ∃ slot, (store.node (trunk.branches.get branch)).membership = some ⟨trunk.tree, slot⟩
  distinct {first second : Branch} : trunk.branches.get first = trunk.branches.get second →
    first = second

variable {trunk : Trunk} {branch : Branch} {before after store : Store}

theorem Trunk.Stands.proceeds (h : trunk.Stands before) (hproceeds : before.Proceeds after) :
    trunk.Stands after where
  reachable := h.reachable.trans hproceeds
  planted := Nat.lt_of_lt_of_le h.planted (h.reachable.arenaSound.reaches hproceeds).2.treeCount_le
  root := ((h.reachable.arenaSound.reaches hproceeds).2.root h.planted).trans h.root
  branch other := by
    obtain ⟨slot, hslot⟩ := h.branch other
    exact ⟨slot, (h.reachable.arenaSound.reaches hproceeds).2.membership hslot⟩
  distinct := h.distinct

theorem Trunk.Stands.branch_lt (h : trunk.Stands store) (branch : Branch) :
    trunk.branches.get branch < store.nodes.size := by
  obtain ⟨slot, hslot⟩ := h.branch branch
  exact lt_size_of_membership hslot

end Engine

open Engine

theorem Node.Fresh.shift_mark {node : Node} (h : node.Fresh) (offset : Nat) :
    node.mark.shift offset = node.mark := by
  simp only [Mark.shift, Node.mark, h.dependencies, List.map_nil]

/-- Some nodes have been attached to a branch of a trunk, and none to the other branches. -/
structure Attaches (trunk : Trunk) (branch : Branch) (found : List NodeId) (before after : Store) :
    Prop where
  proceeds : before.Proceeds after
  children (other : Branch) : (after.node (trunk.branches.get other)).children =
    (before.node (trunk.branches.get other)).children ++ if other = branch then found else []

/-- What an analysis adds to a tree. -/
structure Growth where
  marks : Marks := []
  /-- The number of nodes that it attaches to its branch. -/
  attached : Nat := 0
  fails : Bool := false

/-- The second analysis is not done if the first one fails. -/
def Growth.andThen (first second : Growth) : Growth :=
  if first.fails then first
  else
    { marks := first.marks.followedBy second.marks
      attached := first.attached + second.attached
      fails := second.fails }

theorem Growth.andThen_of_fails {first : Growth} (h : first.fails = true) (second : Growth) :
    first.andThen second = first := by
  rw [andThen, if_pos h]

theorem Growth.andThen_of_not_fails {first : Growth} (h : first.fails = false) (second : Growth) :
    first.andThen second =
      { marks := first.marks.followedBy second.marks
        attached := first.attached + second.attached
        fails := second.fails } := by
  rw [andThen, if_neg (by simp [h])]

/-- A growth has been added to a tree, with some of its nodes attached to a branch. -/
structure Grows (trunk : Trunk) (branch : Branch) (growth : Growth) (found : List NodeId)
    (before after : Store) : Prop extends Attaches trunk branch found before after where
  marks : after.marks trunk.tree = (before.marks trunk.tree).followedBy growth.marks
  attached : found.length = growth.attached

/-- An analysis adds the same growth wherever a trunk stands. What it returns, unless it fails, is
tied to the nodes that it attaches. -/
def Yields {α : Type} (trunk : Trunk) (branch : Branch) (growth : Growth) (analysis : Analysis α)
    (returns : α → List NodeId → Prop) : Prop :=
  ∀ store, trunk.Stands store → ∃ found after, Grows trunk branch growth found store after ∧
    ((growth.fails = true ∧ ∃ fault, analysis store = .error fault after) ∨
      (growth.fails = false ∧ ∃ a, analysis store = .ok a after ∧ returns a found))

variable {trunk : Trunk} {branch : Branch} {growth first second : Growth} {found : List NodeId}
  {before after store : Store}

theorem Attaches.refl (store : Store) : Attaches trunk branch [] store store where
  proceeds := .refl
  children other := by simp

theorem Attaches.trans {middle : Store} {found more : List NodeId}
    (hleft : Attaches trunk branch found before middle)
    (hright : Attaches trunk branch more middle after) :
    Attaches trunk branch (found ++ more) before after where
  proceeds := hleft.proceeds.trans hright.proceeds
  children other := by
    rw [hright.children, hleft.children, List.append_assoc]
    split <;> simp

namespace Grows

theorem refl (store : Store) : Grows trunk branch {} [] store store where
  toAttaches := .refl store
  marks := (Marks.followedBy_nil _).symm
  attached := rfl

theorem trans {middle : Store} {found more : List NodeId} (hfails : first.fails = false)
    (hleft : Grows trunk branch first found before middle)
    (hright : Grows trunk branch second more middle after) :
    Grows trunk branch (first.andThen second) (found ++ more) before after where
  toAttaches := hleft.toAttaches.trans hright.toAttaches
  marks := by
    rw [hright.marks, hleft.marks, Marks.followedBy_assoc, Growth.andThen_of_not_fails hfails]
  attached := by
    rw [List.length_append, hleft.attached, hright.attached, Growth.andThen_of_not_fails hfails]

theorem hang (hstands : trunk.Stands store) {slot : Nat}
    (hslot : (store.node (trunk.branches.get branch)).membership = some ⟨trunk.tree, slot⟩)
    {node : Node} (hfresh : node.Fresh) :
    Grows trunk branch { marks := [node.mark], attached := 1 } [store.nodes.size] store
      (store.hang (trunk.branches.get branch) ⟨trunk.tree, slot⟩ node) where
  proceeds := proceeds_hang hslot hfresh
  children other := by
    rw [node_hang (hstands.branch_lt branch), if_neg (Nat.ne_of_lt (hstands.branch_lt other))]
    by_cases heq : other = branch
    · subst heq
      rw [if_pos rfl, if_pos rfl]
    · have hne : trunk.branches.get other ≠ trunk.branches.get branch :=
        fun h => heq (hstands.distinct h)
      rw [if_neg hne, if_neg heq, List.append_nil]
  marks := by
    have hmarks := marks_hang hstands.reachable.arenaSound hslot node
    rw [hmarks, Marks.followedBy, List.map_singleton, hfresh.shift_mark]
  attached := rfl

end Grows

namespace Yields

variable {α β : Type} {analysis : Analysis α} {next : α → Analysis β}
    {returns : α → List NodeId → Prop}
  {returnsNext : β → List NodeId → Prop}

theorem pure {a : α} (h : returns a []) : Yields trunk branch {} (pure a) returns := by
  intro store _
  exact ⟨[], store, .refl store, Or.inr ⟨rfl, a, rfl, h⟩⟩

theorem throw (fault : Fault) : Yields trunk branch { fails := true } (throw fault) returns := by
  intro store _
  refine ⟨[], store, ⟨.refl store, ?_, rfl⟩, Or.inl ⟨rfl, fault, rfl⟩⟩
  exact (Marks.followedBy_nil _).symm

theorem bind (hanalysis : Yields trunk branch first analysis returns)
    (hnext : ∀ a found, returns a found →
      Yields trunk branch second (next a) fun b more => returnsNext b (found ++ more)) :
    Yields trunk branch (first.andThen second) (analysis >>= next) returnsNext := by
  intro store hstands
  obtain ⟨found, middle, hgrows, ⟨hfails, fault, hfault⟩ | ⟨hfails, a, ha, hreturns⟩⟩ :=
    hanalysis store hstands
  · rw [Growth.andThen_of_fails hfails]
    exact ⟨found, middle, hgrows, Or.inl ⟨hfails, fault, Analysis.bind_of_error hfault⟩⟩
  · have hmiddle := hstands.proceeds hgrows.proceeds
    obtain ⟨more, after, hmore, hlast⟩ := hnext a found hreturns middle hmiddle
    refine ⟨found ++ more, after, hgrows.trans hfails hmore, ?_⟩
    rwa [Analysis.bind_of_ok ha, Growth.andThen_of_not_fails hfails]

/-- Nothing follows an analysis that fails. -/
theorem bind_of_fails (hfails : growth.fails = true)
    (hanalysis : Yields trunk branch growth analysis returns) :
    Yields trunk branch growth (analysis >>= next) returnsNext := by
  intro store hstands
  obtain ⟨found, after, hgrows, ⟨-, fault, hfault⟩ | ⟨hgoes, -⟩⟩ := hanalysis store hstands
  · exact ⟨found, after, hgrows, Or.inl ⟨hfails, fault, Analysis.bind_of_error hfault⟩⟩
  · rw [hfails] at hgoes
    cases hgoes

theorem map {f : α → β} (hanalysis : Yields trunk branch growth analysis returns)
    (hf : ∀ a found, returns a found → returnsNext (f a) found) :
    Yields trunk branch growth (analysis >>= fun a => Pure.pure (f a)) returnsNext := by
  intro store hstands
  obtain ⟨found, after, hgrows, ⟨hfails, fault, hfault⟩ | ⟨hfails, a, ha, hreturns⟩⟩ :=
    hanalysis store hstands
  · exact ⟨found, after, hgrows, Or.inl ⟨hfails, fault, Analysis.bind_of_error hfault⟩⟩
  · exact ⟨found, after, hgrows, Or.inr ⟨hfails, f a, Analysis.bind_of_ok ha, hf a found hreturns⟩⟩

theorem attach {node : Node} (hfresh : node.Fresh) :
    Yields trunk branch { marks := [node.mark], attached := 1 }
      (Analysis.attach (trunk.branches.get branch) node) fun id found => found = [id] := by
  intro store hstands
  obtain ⟨slot, hslot⟩ := hstands.branch branch
  exact ⟨[store.nodes.size], _, .hang hstands hslot hfresh,
    Or.inr ⟨rfl, _, Analysis.attach_eq hslot hfresh, rfl⟩⟩

end Yields

end RiskScan

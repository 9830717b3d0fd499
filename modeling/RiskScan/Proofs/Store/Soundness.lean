import RiskScan.Proofs.Compound.Evaluation
/-!
# Sound arenas

What holds of nodes and trees however a store came about: also after operations that failed, after
trees whose planting stopped half-way, and after nodes have been registered on their own. Nodes and
arenas agree about who stands where, so nothing that a node refers to is missing, and a place that
has been given to a node stays with it.
-/

namespace RiskScan.Store

/-- In every reachable store, arenas and nodes agree: what stands in a slot belongs to the tree and
has the slot as its own; a node of a tree stands in the arena of this tree exactly once and in no
other; a detached node has no slot and no dependencies; dependencies are slots in use, so they
resolve, and a compound severity exists for every node. Whatever operations follow, all of this is
only added to. -/
theorem arenas_of_reachable {store : Store} (hreachable : Reachable store) :
    (∀ tree slot id, (store.tree tree).nodes[slot]? = some id →
      (store.node id).membership = some ⟨tree, slot⟩) ∧
    (∀ id home, (store.node id).membership = some home →
      (store.tree home.tree).nodes.toList.count id = 1 ∧
        ∀ tree ≠ home.tree, id ∉ (store.tree tree).nodes.toList) ∧
    (∀ id, (store.node id).tree? = none →
      (store.node id).slot? = none ∧ (store.node id).dependencies = []) ∧
    (∀ id home, (store.node id).membership = some home →
      ∀ slot ∈ (store.node id).dependencies, slot < (store.tree home.tree).nodes.size) ∧
    (∀ id, (∃ targets, store.dependencies? id = some targets) ∧
      ∃ severity, store.compound? id = some severity) ∧
    ∀ later, Reaches (fun _ => true) store later → Extends store later := by
  have hsound := hreachable.arenaSound
  refine ⟨fun _ _ _ => hsound.membership_of_mem, ?_, ?_, fun _ _ h _ => hsound.dependency_lt h,
    ?_, ?_⟩
  · intro id home h
    refine ⟨List.count_eq_one_of_mem (hsound.nodup home.tree) (hsound.mem_of_membership_eq h), ?_⟩
    intro tree htree hmem
    obtain ⟨slot, hslot⟩ := hsound.membership_of_mem_toList hmem
    rw [h] at hslot
    cases hslot
    exact htree rfl
  · intro id h
    have hdetached : (store.node id).membership = none := by simpa [Node.tree?] using h
    exact ⟨by simp [Node.slot?, hdetached], hsound.dependencies_of_detached hdetached⟩
  · intro id
    refine ⟨?_, hsound.exists_compound id⟩
    cases hid : (store.node id).membership with
    | none => exact ⟨_, ArenaSound.dependencies?_of_detached hid⟩
    | some home => exact ⟨_, hsound.dependencies?_eq hid⟩
  · intro later hlater
    exact (hsound.reaches hlater).2

/-- Node 2 is registered on its own in the tree of node 3, so that planting its parent stops there:
the second tree keeps its root and the first child. -/
def stoppedPlanting : List Operation :=
  [.create { kind := "A", description := "" }, .create { kind := "B", description := "" },
    .create { kind := "C", description := "" }, .create { kind := "D", description := "" },
    .addChild 0 1, .addChild 0 2, .plant 3, .register 0 2, .plant 0, .addDependency 0 1]

theorem arenas_of_stoppedPlanting :
    ∃ store, Reachable store ∧ (store.tree 1).nodes = #[0, 1] ∧
      (store.node 2).membership = some ⟨0, 1⟩ ∧ (store.node 0).dependencies = [1] ∧
      (store.tree 1).nodes.toList.count 1 = 1 ∧ ∃ severity, store.compound? 0 = some severity := by
  have hreachable : Reachable (empty.run stoppedPlanting) :=
    reaches_run .refl stoppedPlanting (by decide +kernel)
  have hnodes : ((empty.run stoppedPlanting).tree 1).nodes = #[0, 1] := by decide +kernel
  have hplace : ((empty.run stoppedPlanting).node 2).membership = some ⟨0, 1⟩ := by decide +kernel
  have hchild : ((empty.run stoppedPlanting).node 1).membership = some ⟨1, 1⟩ := by decide +kernel
  have hdependencies : ((empty.run stoppedPlanting).node 0).dependencies = [1] := by decide +kernel
  generalize empty.run stoppedPlanting = store at *
  obtain ⟨-, hcount, -, -, hcompound, -⟩ := arenas_of_reachable hreachable
  exact ⟨store, hreachable, hnodes, hplace, hdependencies, (hcount 1 ⟨1, 1⟩ hchild).1,
    (hcompound 0).2⟩

end RiskScan.Store

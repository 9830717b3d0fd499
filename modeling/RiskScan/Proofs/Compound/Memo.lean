import RiskScan.Proofs.Compound.Recurrence
import RiskScan.Proofs.Store.Readings
/-!
# Remembered answers

What is remembered at the present revision is the compound severity by the present severities and
dependencies, for all nodes from which no cycle can be reached. A remembered answer was exact when
it was given. Since then either the revision of the tree has moved on, and the answer no longer
counts, or nothing has changed within the tree that could be read off it.
-/

namespace RiskScan.Store

open Relation

variable {store : Store} {id : NodeId}

theorem memo_of_memoAt? {node : Node} {revision : Nat} {severity : Severity}
    (h : node.memoAt? revision = some severity) : node.memo = some ⟨revision, severity⟩ := by
  unfold Node.memoAt? at h
  split at h
  · rename_i memo hmemo
    split at h
    · rename_i hrevision
      cases h
      rw [hmemo, ← hrevision]
    · cases h
  · cases h

theorem memoAt?_of_memo {node : Node} {revision : Nat} {severity : Severity}
    (h : node.memo = some ⟨revision, severity⟩) : node.memoAt? revision = some severity := by
  simp [Node.memoAt?, h]

theorem ArenaSound.dependenciesOf_eq (hsound : ArenaSound store) {home : Membership}
    (hid : (store.node id).membership = some home) :
    store.dependenciesOf id = (store.node id).dependencies.map (store.tree home.tree).nodeAt := by
  rw [dependenciesOf, hsound.dependencies?_eq hid, Option.getD_some]

theorem dependenciesOf_of_detached (hid : (store.node id).membership = none) :
    store.dependenciesOf id = [] := by
  rw [dependenciesOf, ArenaSound.dependencies?_of_detached hid, Option.getD_some]

theorem ArenaSound.dependsOn_iff (hsound : ArenaSound store) {target : NodeId} {home : Membership}
    (hid : (store.node id).membership = some home) :
    store.DependsOn id target ↔
      ∃ slot ∈ (store.node id).dependencies,
        (store.node target).membership = some ⟨home.tree, slot⟩ := by
  rw [DependsOn, hsound.dependenciesOf_eq hid, List.mem_map]
  constructor
  · rintro ⟨slot, hslot, rfl⟩
    obtain ⟨other, hother, hmembership⟩ := hsound.membership_of_dependency hid hslot
    refine ⟨slot, hslot, ?_⟩
    rwa [nodeAt_of_getElem? hother]
  · rintro ⟨slot, hslot, hmembership⟩
    exact ⟨slot, hslot, hsound.nodeAt hmembership⟩

theorem ArenaSound.tree_of_below (hsound : ArenaSound store) {home : Membership}
    (hid : (store.node id).membership = some home) {other : NodeId}
    (hother : other ∈ store.below id) :
    ∃ slot, (store.node other).membership = some ⟨home.tree, slot⟩ := by
  induction hother with
  | single hdepends =>
    obtain ⟨slot, -, hslot⟩ := (hsound.dependsOn_iff hid).mp hdepends
    exact ⟨slot, hslot⟩
  | tail _ hdepends ih =>
    obtain ⟨slot, hslot⟩ := ih
    obtain ⟨last, -, hlast⟩ := (hsound.dependsOn_iff hslot).mp hdepends
    exact ⟨last, hlast⟩

/-- A tree whose revision has stayed reads as before. -/
theorem Advances.agreeOn {before after : Store} (hbefore : ArenaSound before)
    (hafter : ArenaSound after) (hextends : Extends before after)
    (hadvances : Advances before after) {tree : TreeId}
    (hrevision : (after.tree tree).revision = (before.tree tree).revision) :
    AgreeOn (fun id => ∃ slot, (before.node id).membership = some ⟨tree, slot⟩) before after where
  closed id target := by
    rintro ⟨slot, hid⟩ hdepends
    exact hbefore.tree_of_below hid (.single hdepends)
  severity id := by
    rintro ⟨slot, hid⟩
    exact hadvances.severity hid hrevision
  dependencies id := by
    rintro ⟨slot, hid⟩
    rw [hafter.dependenciesOf_eq (hextends.membership hid), hbefore.dependenciesOf_eq hid,
      hadvances.dependencies hid hrevision]
    refine List.map_congr_left fun target htarget => ?_
    obtain ⟨other, hother, hmembership⟩ := hbefore.membership_of_dependency hid htarget
    rw [nodeAt_of_getElem? hother]
    exact hafter.nodeAt (hextends.membership hmembership)

/-- An answer is remembered in the node that was asked only, at the present revision of its tree. -/
theorem memo_remember (store : Store) (id other : NodeId) (severity : Severity) :
    ((store.remember id severity).node other).memo = (store.node other).memo ∨
      other = id ∧ ∃ home, (store.node id).membership = some home ∧
        ((store.remember id severity).node id).memo =
          some ⟨(store.tree home.tree).revision, severity⟩ := by
  cases hid : (store.node id).membership with
  | none =>
    rw [remember_of_detached severity hid]
    exact Or.inl rfl
  | some home =>
    by_cases hnone : (store.node id).dependencies = []
    · rw [remember_of_dependencies_nil severity hnone]
      exact Or.inl rfl
    · have hnode := node_remember_of_membership other severity hid hnone
      by_cases hother : other = id
      · subst hother
        rw [if_pos rfl] at hnode
        exact Or.inr ⟨rfl, home, rfl, by rw [hnode]⟩
      · rw [if_neg hother] at hnode
        exact Or.inl (by rw [hnode])

theorem agreeOn_remember (store : Store) (id : NodeId) (severity : Severity) :
    AgreeOn (fun _ => True) store (store.remember id severity) where
  closed _ _ _ _ := trivial
  severity other _ := remember_keeps Node.severity (fun _ _ => rfl) store id other severity
  dependencies other _ := by
    have hmembership : ((store.remember id severity).node other).membership =
        (store.node other).membership :=
      remember_keeps Node.membership (fun _ _ => rfl) store id other severity
    have hslots : ((store.remember id severity).node other).dependencies =
        (store.node other).dependencies :=
      remember_keeps Node.dependencies (fun _ _ => rfl) store id other severity
    simp only [dependenciesOf, dependencies?, Node.tree?, hmembership, hslots, tree_remember]

/-- What is remembered of a node was computed in its tree, at no later revision than the present
one, and is exact if it counts at the present one. -/
structure MemosExact (store : Store) : Prop where
  past {id : NodeId} {memo : Memo} : (store.node id).memo = some memo →
    ∃ home, (store.node id).membership = some home ∧
      memo.revision ≤ (store.tree home.tree).revision
  exact {id : NodeId} {home : Membership} {severity : Severity} :
    (store.node id).membership = some home →
    (store.node id).memoAt? (store.tree home.tree).revision = some severity →
    ∀ hacyclic : store.AcyclicFrom id,
      severity = Severity.ofWeight (store.compoundWeight id hacyclic : Nat)

namespace MemosExact

theorem empty : MemosExact Store.empty where
  past {id memo} h := by
    rw [node_of_size_le (Nat.zero_le id)] at h
    cases h
  exact h := absurd (lt_size_of_membership h) (Nat.not_lt_zero _)

/-- Memos stay exact when a store only advances: one that still counts afterwards was computed at
the revision before, so the revision has not moved. -/
theorem advance {after : Store} (hexact : MemosExact store) (hbefore : ArenaSound store)
    (hafter : ArenaSound after) (hextends : Extends store after)
    (hadvances : Advances store after) :
    MemosExact after where
  past {id memo} h := by
    rw [hadvances.memo] at h
    obtain ⟨home, hid, hle⟩ := hexact.past h
    exact ⟨home, hextends.membership hid, Nat.le_trans hle (hadvances.revision_le home.tree)⟩
  exact {id home severity} hid hmemo hacyclic := by
    have hremembered : (store.node id).memo = some ⟨(after.tree home.tree).revision, severity⟩ := by
      rw [← hadvances.memo]
      exact memo_of_memoAt? hmemo
    obtain ⟨place, hplace, hle⟩ := hexact.past hremembered
    have hsame : home = place := by
      rw [hextends.membership hplace] at hid
      exact (Option.some.inj hid).symm
    subst hsame
    have hrevision : (after.tree home.tree).revision = (store.tree home.tree).revision :=
      Nat.le_antisymm hle (hadvances.revision_le home.tree)
    have hagree := hadvances.agreeOn hbefore hafter hextends hrevision
    have hbeforeAcyclic := hagree.acyclicFrom ⟨home.slot, hplace⟩ hacyclic
    rw [hagree.compoundWeight_eq id hbeforeAcyclic ⟨home.slot, hplace⟩ hacyclic]
    refine hexact.exact hplace (memoAt?_of_memo ?_) hbeforeAcyclic
    rw [hremembered, hrevision]

/-- With exact memos the evaluation within a tree gives the compound weight, as long as the slots of
all nodes below are closed. A cycle would be needed to meet an open slot. -/
theorem compound_graph_eq (hexact : MemosExact store) (hsound : ArenaSound store) {tree : TreeId}
    (id : NodeId) (hacyclic : store.AcyclicFrom id) {slot : Nat} {closed : Finset Nat}
    (hid : (store.node id).membership = some ⟨tree, slot⟩)
    (hclosed : ∀ other ∈ store.below id, ∀ target,
      (store.node other).membership = some ⟨tree, target⟩ → target ∈ closed) :
    (store.graph tree).compound closed slot = store.compoundWeight id hacyclic := by
  induction id, hacyclic using compoundWeight.induct store generalizing slot closed with
  | case1 id hacyclic hnone =>
    have hnoSlots : (store.node id).dependencies = [] := by
      rw [hsound.dependenciesOf_eq hid] at hnone
      exact List.map_eq_nil_iff.mp hnone
    have hnode := hsound.nodeIn? hid
    have hunknown : (store.graph tree).remembered slot = none := by
      rw [remembered_graph hnode, hnoSlots]
      rfl
    rw [compoundWeight, if_pos hnone, DependencyGraph.compound_of_not_remembered hunknown,
      weight_graph hnode, dependencies_graph hnode, hnoSlots, List.map_nil]
    exact raise_zero (Severity.weight_le _)
  | case2 id hacyclic hsome ih =>
    have hslots : (store.node id).dependencies ≠ [] := by
      intro hnoSlots
      rw [hsound.dependenciesOf_eq hid, hnoSlots] at hsome
      exact hsome rfl
    have hnode := hsound.nodeIn? hid
    have hremembered := remembered_graph hnode
    rw [if_neg (by simpa using hslots)] at hremembered
    cases hmemo : (store.node id).memoAt? (store.tree tree).revision with
    | some severity =>
      rw [hmemo, Option.map_some] at hremembered
      rw [DependencyGraph.compound_of_remembered hremembered, hexact.exact hid hmemo hacyclic]
      exact Severity.weight_ofWeight_of_le (compoundWeight_le store id hacyclic)
    | none =>
      rw [hmemo, Option.map_none] at hremembered
      rw [compoundWeight, if_neg hsome, DependencyGraph.compound_of_not_remembered hremembered]
      -- What a dependency contributes is its compound weight: its slot is closed, and stays the
      -- only one that is opened, because no node below the dependency stands in it.
      have heach : ∀ other (hdepends : store.DependsOn id other) (target : Nat),
          (store.node other).membership = some ⟨tree, target⟩ →
          (store.graph tree).contribution closed target =
            store.compoundWeight other (hacyclic.of_dependsOn hdepends) := by
        intro other hdepends target hother
        rw [DependencyGraph.contribution, if_pos (hclosed other (.single hdepends) target hother)]
        refine ih ⟨other, hdepends⟩ hother ?_
        intro third hthird place hplace
        refine Finset.mem_erase.mpr ⟨?_, hclosed third (.head hdepends hthird) place hplace⟩
        rintro rfl
        have hsame : third = other := by rw [← hsound.nodeAt hplace, hsound.nodeAt hother]
        subst hsame
        exact hacyclic third (.single hdepends) hthird
      rw [weight_graph hnode, dependencies_graph hnode]
      congr 1
      refine strongest_congr fun weight => ?_
      simp only [List.mem_map, List.mem_attach, true_and, Subtype.exists]
      constructor
      · rintro ⟨target, htarget, rfl⟩
        obtain ⟨other, hother, hmembership⟩ := hsound.membership_of_dependency hid htarget
        have hdepends : store.DependsOn id other :=
          (hsound.dependsOn_iff hid).mpr ⟨target, htarget, hmembership⟩
        exact ⟨other, hdepends, (heach other hdepends target hmembership).symm⟩
      · rintro ⟨other, hdepends, rfl⟩
        obtain ⟨target, htarget, hmembership⟩ := (hsound.dependsOn_iff hid).mp hdepends
        exact ⟨target, htarget, heach other hdepends target hmembership⟩

theorem compound?_eq (hexact : MemosExact store) (hsound : ArenaSound store) (id : NodeId)
    (hacyclic : store.AcyclicFrom id) :
    store.compound? id = some (Severity.ofWeight (store.compoundWeight id hacyclic : Nat)) := by
  cases hid : (store.node id).membership with
  | none =>
    rw [hsound.compound?_of_detached hid, compoundWeight, if_pos (dependenciesOf_of_detached hid),
      Severity.ofWeight_weight]
  | some home =>
    rw [hsound.compound?_eq hid, hexact.compound_graph_eq hsound id hacyclic hid]
    intro other hother target htarget
    have hlt := hsound.slot_lt htarget
    refine Finset.mem_erase.mpr ⟨?_, Finset.mem_range.mpr hlt⟩
    rintro rfl
    have hsame : other = id := by rw [← hsound.nodeAt htarget, hsound.nodeAt hid]
    subst hsame
    exact hacyclic other .refl hother

theorem remember (hexact : MemosExact store) (hsound : ArenaSound store) (id : NodeId) :
    MemosExact (store.remember id (store.compoundNow id)) := by
  have hmembership : ∀ other, ((store.remember id (store.compoundNow id)).node other).membership =
      (store.node other).membership :=
    fun other => remember_keeps Node.membership (fun _ _ => rfl) store id other _
  constructor
  · intro other memo h
    simp only [hmembership, tree_remember]
    rcases memo_remember store id other (store.compoundNow id) with hold | ⟨rfl, home, hhome, hnew⟩
    · rw [hold] at h
      exact hexact.past h
    · rw [hnew] at h
      cases h
      exact ⟨home, hhome, Nat.le_refl _⟩
  · intro other home severity hother h hacyclic
    rw [hmembership] at hother
    rw [tree_remember] at h
    have hagree := agreeOn_remember store id (store.compoundNow id)
    have hbefore : store.AcyclicFrom other := hagree.acyclicFrom trivial hacyclic
    rw [hagree.compoundWeight_eq other hbefore trivial hacyclic]
    rcases memo_remember store id other (store.compoundNow id) with hold | ⟨rfl, place, -, hnew⟩
    · refine hexact.exact hother (memoAt?_of_memo ?_) hbefore
      rw [← hold]
      exact memo_of_memoAt? h
    · have hsame := memo_of_memoAt? h
      rw [hnew] at hsame
      obtain ⟨-, rfl⟩ := Memo.mk.inj (Option.some.inj hsame)
      rw [compoundNow, hexact.compound?_eq hsound other hbefore, Option.getD_some]

theorem step (hexact : MemosExact store) (hsound : ArenaSound store) {operation : Operation}
    (hknown : store.knows operation) : MemosExact (operation.after store) := by
  obtain ⟨hafter, hextends⟩ := hsound.step hknown
  by_cases hcompound : ∃ id, operation = .compound id
  · obtain ⟨id, rfl⟩ := hcompound
    exact hexact.remember hsound id
  · have hadvances := Advances.step hsound hknown fun id heq => hcompound ⟨id, heq⟩
    exact hexact.advance hsound hafter hextends hadvances

end MemosExact

theorem Reaches.memosExact {allowed : Operation → Bool} (hreaches : Reaches allowed empty store) :
    MemosExact store := by
  induction hreaches with
  | refl => exact .empty
  | step hbefore _ hknown ih => exact ih.step hbefore.arenaSound hknown

/-- However a store came about, and whatever was asked on the way, a node from which no cycle of
dependencies can be reached answers with the compound weight by the present severities and
dependencies. -/
theorem compound_of_reachable (hreachable : Reachable store) (id : NodeId)
    (hacyclic : store.AcyclicFrom id) :
    store.compound? id = some (Severity.ofWeight (store.compoundWeight id hacyclic : Nat)) ∧
      (Store.compound id store).1 = Severity.ofWeight (store.compoundWeight id hacyclic : Nat) := by
  have hanswer := hreachable.memosExact.compound?_eq hreachable.arenaSound id hacyclic
  refine ⟨hanswer, ?_⟩
  rw [Store.compound]
  simp only [compoundNow, hanswer, Option.getD_some]

theorem acyclicFrom_of_lt (h : ∀ id target, store.DependsOn id target → target < id) :
    store.AcyclicFrom id := by
  have hdescends : ∀ {first last : NodeId}, TransGen store.DependsOn first last → last < first := by
    intro first last hpath
    induction hpath with
    | single hdepends => exact h _ _ hdepends
    | tail _ hdepends ih => exact Nat.lt_trans (h _ _ hdepends) ih
  exact fun other _ hcycle => Nat.lt_irrefl other (hdescends hcycle)

/-- Node 2 is asked twice. What it remembers is out of date at the end. -/
def askedAndChanged : List Operation :=
  [.create { kind := "A", description := "" }, .create { kind := "B", description := "" },
    .create { kind := "C", description := "" }, .plant 0, .addChild 0 1, .addChild 0 2,
    .addDependency 2 1, .compound 2, .addDependency 1 0, .setSeverity 0 (.text "critical"),
    .compound 2, .setSeverity 1 (.text "medium")]

theorem compound_of_askedAndChanged :
    ∃ store, Reachable store ∧ (store.node 2).memo = some ⟨3, .low⟩ ∧
      ∃ hacyclic : store.AcyclicFrom 2,
        store.compound? 2 = some (Severity.ofWeight (store.compoundWeight 2 hacyclic : Nat)) ∧
          store.compound? 2 = some .medium := by
  have hreachable : Reachable (empty.run askedAndChanged) :=
    reaches_run .refl askedAndChanged (by decide +kernel)
  have hsize : (empty.run askedAndChanged).nodes.size = 3 := by decide +kernel
  have hdescends : ∀ id < 3, ∀ target ∈ (empty.run askedAndChanged).dependenciesOf id,
      target < id := by decide +kernel
  have hmemo : ((empty.run askedAndChanged).node 2).memo = some ⟨3, .low⟩ := by decide +kernel
  have hanswer : (empty.run askedAndChanged).compound? 2 = some .medium := by decide +kernel
  generalize empty.run askedAndChanged = store at *
  have hacyclic : store.AcyclicFrom 2 := by
    refine acyclicFrom_of_lt fun id target hdepends => ?_
    have hid : id < 3 := by
      rw [← hsize]
      exact lt_size_of_dependsOn hdepends
    exact hdescends id hid target hdepends
  exact ⟨store, hreachable, hmemo, hacyclic, (compound_of_reachable hreachable 2 hacyclic).1,
    hanswer⟩

end RiskScan.Store

import RiskScan.CriticalPath
import RiskScan.Proofs.Compound.Memo
import RiskScan.Proofs.Compound.Rounding
/-!
# The order of asking

Nodes of a tree are asked one after the other while its revision stays. Along a cycle of
dependencies the answers may depend on the order, because a remembered answer is used wherever its
node is met, in the middle of another evaluation too. A node gives the same answer in every order
exactly if its first answer is its own severity raised by the first answers of the nodes that it
depends on. Whether an answer is critical never depends on the order, and so critical paths do not
either.
-/

namespace RiskScan.Store

variable {store : Store} {tree : TreeId} {id : NodeId}

def ask (store : Store) (ids : List NodeId) : Store :=
  ids.foldl (fun store id => (compound id store).2) store

/-- Nothing that is remembered in a tree counts at its present revision. -/
def Unasked (store : Store) (tree : TreeId) : Prop :=
  ∀ id, (store.node id).tree? = some tree →
    (store.node id).memoAt? (store.tree tree).revision = none

/-- A node answers the same, whichever nodes of a tree have been asked before. -/
def OrderIndependent (store : Store) (tree : TreeId) (id : NodeId) : Prop :=
  ∀ first second : List NodeId, (∀ other ∈ first ++ second, (store.node other).tree? = some tree) →
    (store.ask first).compound? id = (store.ask second).compound? id

theorem tree?_eq_some {node : Node} :
    node.tree? = some tree ↔ ∃ slot, node.membership = some ⟨tree, slot⟩ := by
  rw [Node.tree?, Option.map_eq_some_iff]
  constructor
  · rintro ⟨home, hhome, rfl⟩
    exact ⟨home.slot, hhome⟩
  · rintro ⟨slot, hslot⟩
    exact ⟨_, hslot, rfl⟩

theorem unasked_of_lt (h : ∀ id < store.nodes.size,
    (store.node id).memoAt? (store.tree tree).revision = none) : store.Unasked tree := by
  intro id hid
  obtain ⟨slot, hslot⟩ := tree?_eq_some.mp hid
  exact h id (lt_size_of_membership hslot)

/-- A tree that is new, or whose revision has just moved on, is unasked. -/
theorem unasked_of_changed (hreachable : Reachable store) {operation : Operation}
    (hknown : store.knows operation) (hchanged : store.trees.size ≤ tree ∨
      (store.tree tree).revision < ((operation.after store).tree tree).revision) :
    (operation.after store).Unasked tree := by
  have hsound := hreachable.arenaSound
  obtain ⟨hafter, hextends⟩ := hsound.step hknown
  intro id hid
  obtain ⟨slot, hslot⟩ := tree?_eq_some.mp hid
  by_cases hcompound : ∃ asked, operation = .compound asked
  · obtain ⟨asked, rfl⟩ := hcompound
    rw [Operation.after_compound] at hslot hafter hchanged
    rw [tree_remember] at hchanged
    have hlt := hafter.tree_lt hslot
    rw [treeCount_remember] at hlt
    exact absurd hlt (Nat.not_lt.mpr (hchanged.resolve_right (Nat.lt_irrefl _)))
  · have hadvances := Advances.step hsound hknown fun asked heq => hcompound ⟨asked, heq⟩
    cases hmemo : ((operation.after store).node id).memoAt?
        ((operation.after store).tree tree).revision with
    | none => rfl
    | some severity =>
      have hremembered := memo_of_memoAt? hmemo
      rw [hadvances.memo] at hremembered
      obtain ⟨home, hhome, hle⟩ := hreachable.memosExact.past hremembered
      have hsame := hextends.membership hhome
      rw [hslot] at hsame
      cases hsame
      rcases hchanged with hnew | hmoved
      · have hlt := hsound.tree_lt hhome
        exact absurd hlt (Nat.not_lt.mpr hnew)
      · exact absurd hmoved (Nat.not_lt.mpr hle)

/-! ### What asking leaves alone -/

theorem ask_cons (store : Store) (id : NodeId) (ids : List NodeId) :
    store.ask (id :: ids) = (store.remember id (store.compoundNow id)).ask ids := rfl

theorem ask_append (store : Store) (first second : List NodeId) :
    store.ask (first ++ second) = (store.ask first).ask second :=
  List.foldl_append

theorem ask_keeps {β : Type} (part : Node → β)
    (hpart : ∀ node memo, part { node with memo := memo } = part node)
    (store : Store) (ids : List NodeId) (other : NodeId) :
    part ((store.ask ids).node other) = part (store.node other) := by
  induction ids generalizing store with
  | nil => rfl
  | cons id ids ih => rw [ask_cons, ih, remember_keeps part hpart]

@[simp] theorem tree_ask (store : Store) (ids : List NodeId) (tree : TreeId) :
    (store.ask ids).tree tree = store.tree tree := by
  induction ids generalizing store with
  | nil => rfl
  | cons id ids ih => rw [ask_cons, ih, tree_remember]

@[simp] theorem size_ask (store : Store) (ids : List NodeId) :
    (store.ask ids).nodes.size = store.nodes.size := by
  induction ids generalizing store with
  | nil => rfl
  | cons id ids ih => rw [ask_cons, ih, size_remember]

namespace ArenaSound

theorem remember (hsound : ArenaSound store) (id : NodeId) (severity : Severity) :
    ArenaSound (store.remember id severity) :=
  hsound.of_eq (Nat.le_of_eq (size_remember store id severity).symm)
    (remember_keeps Node.membership (fun _ _ => rfl) store id · severity)
    (remember_keeps Node.dependencies (fun _ _ => rfl) store id · severity)
    (remember_keeps Node.children (fun _ _ => rfl) store id · severity)
    (fun tree => by rw [tree_remember])

theorem ask (hsound : ArenaSound store) (ids : List NodeId) : ArenaSound (store.ask ids) := by
  induction ids generalizing store with
  | nil => exact hsound
  | cons id ids ih => exact ih (hsound.remember id _)

end ArenaSound

/-! ### Asking in the graph of a tree -/

def slots (store : Store) (tree : TreeId) : Finset Nat :=
  Finset.range (store.tree tree).nodes.size

/-- The slots in which the nodes of a tree stand, for those that are nodes of the tree. -/
def slotsOf (store : Store) (tree : TreeId) (ids : List NodeId) : List Nat :=
  ids.filterMap fun id => (store.node id).membership.bind fun home =>
    if home.tree = tree then some home.slot else none

theorem slotsOf_cons (ids : List NodeId) {slot : Nat}
    (hid : (store.node id).membership = some ⟨tree, slot⟩) :
    store.slotsOf tree (id :: ids) = slot :: store.slotsOf tree ids := by
  simp [slotsOf, hid]

theorem slotsOf_cons_of_ne (ids : List NodeId) (hid : (store.node id).tree? ≠ some tree) :
    store.slotsOf tree (id :: ids) = store.slotsOf tree ids := by
  rw [slotsOf, List.filterMap_cons_none]
  · rfl
  · rw [Option.bind_eq_none_iff]
    intro home hhome
    refine if_neg fun htree => hid ?_
    rw [tree?_of_membership hhome, htree]

theorem slotsOf_remember (store : Store) (id : NodeId) (severity : Severity) (ids : List NodeId) :
    (store.remember id severity).slotsOf tree ids = store.slotsOf tree ids := by
  unfold slotsOf
  congr 1
  funext other
  rw [remember_keeps Node.membership (fun _ _ => rfl)]

theorem mem_slots_of_slotsOf (hsound : ArenaSound store) (ids : List NodeId) :
    ∀ slot ∈ store.slotsOf tree ids, slot ∈ store.slots tree := by
  intro slot hslot
  obtain ⟨other, -, hother⟩ := List.mem_filterMap.mp hslot
  obtain ⟨home, hhome, hplace⟩ := Option.bind_eq_some_iff.mp hother
  split at hplace
  · rename_i htree
    cases hplace
    subst htree
    exact Finset.mem_range.mpr (hsound.slot_lt hhome)
  · cases hplace

theorem compound?_eq_answer (hsound : ArenaSound store) {slot : Nat}
    (hid : (store.node id).membership = some ⟨tree, slot⟩) :
    store.compound? id =
      some (Severity.ofWeight ((store.graph tree).answer (store.slots tree) slot : Nat)) :=
  hsound.compound?_eq hid

theorem compoundNow_eq_answer (hsound : ArenaSound store) {slot : Nat}
    (hid : (store.node id).membership = some ⟨tree, slot⟩) : store.compoundNow id =
      Severity.ofWeight ((store.graph tree).answer (store.slots tree) slot : Nat) := by
  rw [compoundNow, compound?_eq_answer hsound hid, Option.getD_some]

theorem target_mem_slots (hsound : ArenaSound store) (tree : TreeId) (slot : Nat) :
    ∀ target ∈ (store.graph tree).dependencies slot, target ∈ store.slots tree := by
  intro target htarget
  cases hget : (store.tree tree).nodes[slot]? with
  | none =>
    simp only [graph, nodeIn?, hget, Option.map_none, Option.getD_none] at htarget
    exact absurd htarget List.not_mem_nil
  | some id =>
    rw [dependencies_graph (nodeIn?_of_getElem? hget)] at htarget
    exact Finset.mem_range.mpr (hsound.dependency_lt (hsound.membership_of_mem hget) htarget)

/-- An answer is remembered in the slot of the node that was asked, and in no other. -/
theorem nodeIn?_remember (hsound : ArenaSound store) (severity : Severity) {slot : Nat}
    (hid : (store.node id).membership = some ⟨tree, slot⟩)
    (hsome : (store.node id).dependencies ≠ []) (place : Nat) :
    (store.remember id severity).nodeIn? tree place =
      if place = slot then
        some { store.node id with memo := some ⟨(store.tree tree).revision, severity⟩ }
      else store.nodeIn? tree place := by
  rw [nodeIn?, tree_remember, nodeIn?]
  cases hget : (store.tree tree).nodes[place]? with
  | none =>
    rw [if_neg]
    · rfl
    · rintro rfl
      rw [hsound.mem_of_membership hid] at hget
      cases hget
  | some other =>
    rw [Option.map_some, Option.map_some, node_remember_of_membership other severity hid hsome]
    by_cases hother : other = id
    · subst hother
      have hplace := hsound.membership_of_mem hget
      rw [hid] at hplace
      cases hplace
      rw [if_pos rfl, if_pos rfl]
    · rw [if_neg hother, if_neg]
      rintro rfl
      rw [hsound.mem_of_membership hid] at hget
      exact hother (Option.some.inj hget).symm

theorem graph_remember (hsound : ArenaSound store) {slot : Nat}
    (hid : (store.node id).membership = some ⟨tree, slot⟩) :
    (store.remember id (store.compoundNow id)).graph tree =
      (store.graph tree).ask (store.slots tree) slot := by
  have hnode := hsound.nodeIn? hid
  unfold DependencyGraph.ask
  rw [dependencies_graph hnode]
  by_cases hnone : (store.node id).dependencies = []
  · rw [if_pos hnone, remember_of_dependencies_nil _ hnone]
  · rw [if_neg hnone]
    have hin := nodeIn?_remember hsound (store.compoundNow id) hid hnone
    have hle : (store.graph tree).answer (store.slots tree) slot ≤ Severity.maxWeight :=
      compound_graph_le store tree _ slot
    apply DependencyGraph.ext
    · funext place
      by_cases hplace : place = slot
      · subst hplace
        rw [weight_graph ((hin place).trans (if_pos rfl)), weight_graph hnode]
      · simp only [graph, hin, if_neg hplace]
    · funext place
      by_cases hplace : place = slot
      · subst hplace
        rw [dependencies_graph ((hin place).trans (if_pos rfl)), dependencies_graph hnode]
      · simp only [graph, hin, if_neg hplace]
    · funext place
      dsimp only
      by_cases hplace : place = slot
      · subst hplace
        rw [remembered_graph ((hin place).trans (if_pos rfl)), Function.update_self, tree_remember]
        dsimp only
        rw [if_neg (by simpa using hnone), memoAt?_of_memo rfl, Option.map_some,
          compoundNow_eq_answer hsound hid, Severity.weight_ofWeight_of_le hle]
      · rw [Function.update_of_ne hplace]
        simp only [graph, hin, if_neg hplace, tree_remember]

/-- Asking a node of another tree, or of none, changes nothing in the graph of a tree. -/
theorem graph_remember_of_ne (hsound : ArenaSound store) (severity : Severity)
    (hid : (store.node id).tree? ≠ some tree) :
    (store.remember id severity).graph tree = store.graph tree := by
  have hin : ∀ place, (store.remember id severity).nodeIn? tree place =
      store.nodeIn? tree place := by
    intro place
    rw [nodeIn?, tree_remember, nodeIn?]
    cases hget : (store.tree tree).nodes[place]? with
    | none => rfl
    | some other =>
      have hother := hsound.membership_of_mem hget
      have hne : other ≠ id := by
        rintro rfl
        exact hid (tree?_eq_some.mpr ⟨place, hother⟩)
      rw [Option.map_some, Option.map_some]
      cases hmembership : (store.node id).membership with
      | none => rw [remember_of_detached severity hmembership]
      | some home =>
        by_cases hnone : (store.node id).dependencies = []
        · rw [remember_of_dependencies_nil severity hnone]
        · rw [node_remember_of_membership other severity hmembership hnone, if_neg hne]
  simp only [graph, hin, tree_remember]

theorem graph_ask (hsound : ArenaSound store) (tree : TreeId) (ids : List NodeId) :
    (store.ask ids).graph tree =
      (store.graph tree).askAll (store.slots tree) (store.slotsOf tree ids) := by
  induction ids generalizing store with
  | nil => rfl
  | cons id ids ih =>
    rw [ask_cons, ih (hsound.remember id _), slotsOf_remember, slots, tree_remember, ← slots]
    by_cases hid : (store.node id).tree? = some tree
    · obtain ⟨slot, hslot⟩ := tree?_eq_some.mp hid
      rw [graph_remember hsound hslot, slotsOf_cons ids hslot]
      rfl
    · rw [graph_remember_of_ne hsound _ hid, slotsOf_cons_of_ne ids hid]

theorem nothing_of_unasked (hsound : ArenaSound store) (hunasked : store.Unasked tree)
    (slot : Nat) :
    (store.graph tree).remembered slot = none := by
  cases hget : (store.tree tree).nodes[slot]? with
  | none => simp only [graph, nodeIn?, hget, Option.map_none, Option.bind_none]
  | some id =>
    have htree := tree?_eq_some.mpr ⟨slot, hsound.membership_of_mem hget⟩
    rw [remembered_graph (nodeIn?_of_getElem? hget), hunasked id htree]
    split <;> rfl

/-! ### Answers in a tree -/

theorem compound?_ask (hsound : ArenaSound store) {slot : Nat}
    (hid : (store.node id).membership = some ⟨tree, slot⟩) (ids : List NodeId) :
    (store.ask ids).compound? id = some (Severity.ofWeight
      (((store.graph tree).askAll (store.slots tree) (store.slotsOf tree ids)).answer
        (store.slots tree) slot : Nat)) := by
  have hmembership : ((store.ask ids).node id).membership = some ⟨tree, slot⟩ := by
    rw [ask_keeps Node.membership (fun _ _ => rfl), hid]
  have hslots : (store.ask ids).slots tree = store.slots tree := by
    rw [slots, tree_ask, slots]
  rw [compound?_eq_answer (hsound.ask ids) hmembership, graph_ask hsound, hslots]

theorem ofWeight_injective {first second : Nat} (hfirst : first ≤ Severity.maxWeight)
    (hsecond : second ≤ Severity.maxWeight)
    (h : Severity.ofWeight (first : Nat) = Severity.ofWeight (second : Nat)) : first = second := by
  have hweight := congrArg Severity.weight h
  rwa [Severity.weight_ofWeight_of_le hfirst, Severity.weight_ofWeight_of_le hsecond] at hweight

/-- In the graph of its tree, a node is independent of the order if its slot is. -/
theorem orderIndependent_iff_graph (hsound : ArenaSound store) {slot : Nat}
    (hid : (store.node id).membership = some ⟨tree, slot⟩) (hunasked : store.Unasked tree) :
    store.OrderIndependent tree id ↔
      ∀ slots : List Nat, (∀ asked ∈ slots, asked ∈ store.slots tree) →
        ((store.graph tree).askAll (store.slots tree) slots).answer (store.slots tree) slot =
          (store.graph tree).answer (store.slots tree) slot := by
  have hstart := DependencyGraph.Asked.refl (nothing_of_unasked hsound hunasked) (store.slots tree)
  constructor
  · intro hindependent slots hslots
    have hmembership : ∀ asked ∈ slots,
        (store.node ((store.tree tree).nodeAt asked)).membership = some ⟨tree, asked⟩ := by
      intro asked hasked
      have hget := Array.getElem?_eq_getElem (Finset.mem_range.mp (hslots asked hasked))
      rw [nodeAt_of_getElem? hget]
      exact hsound.membership_of_mem hget
    have hslotsOf : store.slotsOf tree (slots.map (store.tree tree).nodeAt) = slots := by
      rw [slotsOf, List.filterMap_map]
      calc slots.filterMap _ = slots.filterMap some :=
            List.filterMap_congr fun asked hasked => by
              simp [hmembership asked hasked]
        _ = slots := List.filterMap_some
    have hanswers := hindependent (slots.map (store.tree tree).nodeAt) [] ?_
    · rw [compound?_ask hsound hid, compound?_ask hsound hid, hslotsOf] at hanswers
      exact ofWeight_injective ((hstart.askAll slots).answer_le_max slot)
        ((hstart.askAll []).answer_le_max slot) (Option.some.inj hanswers)
    · intro other hother
      rw [List.append_nil] at hother
      obtain ⟨asked, hasked, rfl⟩ := List.mem_map.mp hother
      exact tree?_eq_some.mpr ⟨asked, hmembership asked hasked⟩
  · intro hsame first second _
    rw [compound?_ask hsound hid, compound?_ask hsound hid,
      hsame _ (mem_slots_of_slotsOf hsound first), hsame _ (mem_slots_of_slotsOf hsound second)]

theorem raised_heaviest_eq (hsound : ArenaSound store) {slot : Nat}
    (hid : (store.node id).membership = some ⟨tree, slot⟩) :
    (store.node id).severity.raised (heaviest ((store.dependenciesOf id).map store.compoundNow)) =
      Severity.ofWeight ((store.graph tree).greatest (store.slots tree) slot : Nat) := by
  have hnode := hsound.nodeIn? hid
  have hanswers : (store.dependenciesOf id).map store.compoundNow =
      ((store.node id).dependencies.map ((store.graph tree).answer (store.slots tree))).map
        fun (weight : Nat) => Severity.ofWeight weight := by
    rw [hsound.dependenciesOf_eq hid, List.map_map, List.map_map]
    refine List.map_congr_left fun target htarget => ?_
    obtain ⟨other, hother, hmembership⟩ := hsound.membership_of_dependency hid htarget
    rw [Function.comp_apply, nodeAt_of_getElem? hother, compoundNow_eq_answer hsound hmembership]
    rfl
  rw [DependencyGraph.greatest, weight_graph hnode, dependencies_graph hnode, hanswers]
  refine raised_heaviest _ fun weight hmem => ?_
  obtain ⟨target, -, rfl⟩ := List.mem_map.mp hmem
  exact compound_graph_le store tree _ target

/-- A node of an unasked tree is independent of the order exactly if it answers what the recurrence
makes of the answers of the nodes that it depends on. -/
theorem orderIndependent_iff_raised (hsound : ArenaSound store)
    (hid : (store.node id).tree? = some tree) (hunasked : store.Unasked tree) :
    store.OrderIndependent tree id ↔ store.compoundNow id =
      (store.node id).severity.raised
        (heaviest ((store.dependenciesOf id).map store.compoundNow)) := by
  obtain ⟨slot, hslot⟩ := tree?_eq_some.mp hid
  rw [orderIndependent_iff_graph hsound hslot hunasked,
    DependencyGraph.answer_askAll_iff (nothing_of_unasked hsound hunasked)
      (target_mem_slots hsound tree), raised_heaviest_eq hsound hslot,
    compoundNow_eq_answer hsound hslot]
  constructor
  · intro heq
    rw [heq]
  · exact ofWeight_injective (compound_graph_le store tree _ slot) (raise_le _ _)

theorem ofWeight_eq_critical_iff {weight : Nat} (h : weight ≤ Severity.maxWeight) :
    Severity.ofWeight (weight : Nat) = .critical ↔ weight = Severity.maxWeight := by
  constructor
  · intro hcritical
    exact ofWeight_injective h (Nat.le_refl _) hcritical
  · rintro rfl
    rfl

/-! ### Critical paths -/

def outside (store : Store) (tree : TreeId) (ids : List NodeId) : List NodeId :=
  ids.filter fun id => (store.node id).tree? ≠ some tree

theorem slotsOf_outside (ids : List NodeId) {other : TreeId} (hother : other ≠ tree) :
    store.slotsOf other (store.outside tree ids) = store.slotsOf other ids := by
  induction ids with
  | nil => rfl
  | cons id ids ih =>
    by_cases hid : (store.node id).tree? = some tree
    · have hne : (store.node id).tree? ≠ some other := by
        rw [hid]
        exact fun heq => hother (Option.some.inj heq).symm
      rw [outside, List.filter_cons_of_neg (by simpa using hid), ← outside, ih,
        slotsOf_cons_of_ne ids hne]
    · rw [outside, List.filter_cons_of_pos (by simpa using hid), ← outside]
      simp only [slotsOf, List.filterMap_cons] at ih ⊢
      rw [ih]

/-- Whether a node is critical is the same after nodes have been asked that differ in an unasked
tree only. -/
theorem critical_ask_congr (hsound : ArenaSound store) (hunasked : store.Unasked tree)
    {first second : List NodeId} (hsame : store.outside tree first = store.outside tree second)
    (id : NodeId) : (store.ask first).compound? id = some .critical ↔
      (store.ask second).compound? id = some .critical := by
  cases hmembership : (store.node id).membership with
  | none =>
    have hdetached : ∀ ids, (store.ask ids).compound? id = some (store.node id).severity := by
      intro ids
      have hnone : ((store.ask ids).node id).membership = none := by
        rw [ask_keeps Node.membership (fun _ _ => rfl), hmembership]
      rw [(hsound.ask ids).compound?_of_detached hnone, ask_keeps Node.severity (fun _ _ => rfl)]
    rw [hdetached, hdetached]
  | some home =>
    rw [compound?_ask hsound hmembership, compound?_ask hsound hmembership]
    by_cases htree : home.tree = tree
    · subst htree
      have hnothing := nothing_of_unasked hsound hunasked
      have hstart := DependencyGraph.Asked.refl hnothing (store.slots home.tree)
      have hiff : ∀ slots,
          Severity.ofWeight (((store.graph home.tree).askAll (store.slots home.tree)
          slots).answer (store.slots home.tree) home.slot : Nat) = .critical ↔
          (store.graph home.tree).answer (store.slots home.tree) home.slot =
            Severity.maxWeight := by
        intro slots
        rw [ofWeight_eq_critical_iff ((hstart.askAll slots).answer_le_max home.slot)]
        exact DependencyGraph.answer_askAll_eq_max hnothing (target_mem_slots hsound home.tree)
          slots
          home.slot
      rw [Option.some.injEq, Option.some.injEq, hiff, hiff]
    · rw [← slotsOf_outside first htree, ← slotsOf_outside second htree, hsame]

/-- A computation that asks nodes gives the same result, and asks the same nodes, after nodes have
been asked that differ in one tree only. -/
def Alike {α : Type} (store : Store) (tree : TreeId) (computation : StateM Store α) : Prop :=
  ∀ first second : List NodeId, store.outside tree first = store.outside tree second →
    ∃ result asked, computation (store.ask first) = (result, store.ask (first ++ asked)) ∧
      computation (store.ask second) = (result, store.ask (second ++ asked))

namespace Alike

variable {α β : Type}

theorem pure (result : α) : Alike store tree (pure result) := by
  intro first second _
  refine ⟨result, [], ?_, ?_⟩
  · rw [List.append_nil]
    rfl
  · rw [List.append_nil]
    rfl

theorem bind {computation : StateM Store α} {next : α → StateM Store β}
    (hcomputation : Alike store tree computation)
    (hnext : ∀ result, Alike store tree (next result)) :
    Alike store tree (computation >>= next) := by
  intro first second hsame
  obtain ⟨result, asked, hfirst, hsecond⟩ := hcomputation first second hsame
  have hlater : store.outside tree (first ++ asked) = store.outside tree (second ++ asked) := by
    simp only [outside, List.filter_append] at hsame ⊢
    rw [hsame]
  obtain ⟨final, more, hfirstNext, hsecondNext⟩ := hnext result _ _ hlater
  rw [List.append_assoc] at hfirstNext hsecondNext
  refine ⟨final, asked ++ more, ?_, ?_⟩
  · rw [← hfirstNext]
    change next (computation (store.ask first)).1 (computation (store.ask first)).2 = _
    rw [hfirst]
  · rw [← hsecondNext]
    change next (computation (store.ask second)).1 (computation (store.ask second)).2 = _
    rw [hsecond]

theorem isCriticalNode (hsound : ArenaSound store) (hunasked : store.Unasked tree) (floor : Float)
    (id : NodeId) : Alike store tree (isCriticalNode floor id) := by
  have hnode : ∀ ids, Store.isCriticalNode floor id (store.ask ids) =
      (decide ((store.ask ids).compoundNow id = .critical ∧
        floor ≤ (store.node id).confidence.value), store.ask (ids ++ [id])) := by
    intro ids
    have hconfidence : ((store.ask (ids ++ [id])).node id).confidence =
        (store.node id).confidence :=
      ask_keeps Node.confidence (fun _ _ => rfl) store _ id
    rw [← hconfidence, ask_append]
    rfl
  have hnow : ∀ ids, (store.ask ids).compoundNow id = .critical ↔
      (store.ask ids).compound? id = some .critical := by
    intro ids
    obtain ⟨severity, hseverity⟩ := (hsound.ask ids).exists_compound id
    rw [compoundNow, hseverity, Option.getD_some, Option.some.injEq]
  intro first second hsame
  have hcritical := critical_ask_congr hsound hunasked hsame id
  rw [← hnow, ← hnow] at hcritical
  refine ⟨_, [id], hnode first, ?_⟩
  rw [hnode second]
  simp only [hcritical]

end Alike

theorem outlineWithin_ask (store : Store) (ids : List NodeId) (fuel : Nat) (id : NodeId) :
    (store.ask ids).outlineWithin fuel id = store.outlineWithin fuel id := by
  induction fuel generalizing id with
  | zero => rfl
  | succ fuel ih =>
    rw [outlineWithin, outlineWithin, ask_keeps Node.children (fun _ _ => rfl)]
    congr 1
    exact List.map_congr_left fun child _ => ih child

theorem paths_ask (store : Store) (ids : List NodeId) (id : NodeId) :
    (store.ask ids).paths id = store.paths id := by
  rw [paths, paths, pathsAfter, pathsAfter, outline, outline, outlineWithin_ask, size_ask]

theorem Alike.criticalAmong (hsound : ArenaSound store) (hunasked : store.Unasked tree)
    (floor : Float) (paths : List (List NodeId)) :
    Alike store tree (criticalAmong floor paths) := by
  have hpath : ∀ path, Alike store tree (isCriticalPath floor path) := by
    intro path
    induction path with
    | nil => exact .pure false
    | cons id path ih =>
      refine (isCriticalNode hsound hunasked floor id).bind fun critical => ?_
      cases critical with
      | true => exact .pure true
      | false => exact ih
  induction paths with
  | nil => exact .pure []
  | cons path paths ih => exact (hpath path).bind fun critical => ih.bind fun others => .pure _

/-- Whatever has been asked in a tree, a node of it gives the same answer exactly if its answer,
when nothing has been asked, is its own severity raised by the answers of the nodes that it depends
on, when nothing has been asked either. In any case the same critical paths are found from every
node. -/
theorem orderIndependent_iff (hreachable : Reachable store)
    (hid : (store.node id).tree? = some tree) (hunasked : store.Unasked tree) :
    (store.OrderIndependent tree id ↔ store.compoundNow id = (store.node id).severity.raised
      (heaviest ((store.dependenciesOf id).map store.compoundNow))) ∧
    ∀ (floor : Float) (root : NodeId) (first second : List NodeId),
      (∀ other ∈ first ++ second, (store.node other).tree? = some tree) →
      (criticalPaths floor root (store.ask first)).1 =
        (criticalPaths floor root (store.ask second)).1 := by
  have hsound := hreachable.arenaSound
  refine ⟨orderIndependent_iff_raised hsound hid hunasked, ?_⟩
  intro floor root first second hmem
  have hout : ∀ ids, (∀ other ∈ ids, (store.node other).tree? = some tree) →
      store.outside tree ids = [] := by
    intro ids hids
    rw [outside, List.filter_eq_nil_iff]
    intro other hother
    simpa using hids other hother
  have hsame : store.outside tree first = store.outside tree second := by
    rw [hout first fun other hother => hmem other (List.mem_append_left second hother),
      hout second fun other hother => hmem other (List.mem_append_right first hother)]
  have hpaths : ∀ ids, criticalPaths floor root (store.ask ids) =
      criticalAmong floor (store.paths root) (store.ask ids) := by
    intro ids
    rw [← paths_ask store ids]
    rfl
  obtain ⟨result, asked, hfirst, hsecond⟩ :=
    Alike.criticalAmong hsound hunasked floor (store.paths root) first second hsame
  rw [hpaths, hpaths, hfirst, hsecond]

/-- Nodes 1 and 2 depend on each other. -/
def mutualPair : List Operation :=
  [.create { kind := "A", description := "" },
    .create { kind := "B", description := "", severity := .text "low" },
    .create { kind := "C", description := "", severity := .text "high" },
    .plant 0, .addChild 0 1, .addChild 0 2, .addDependency 1 2, .addDependency 2 1]

theorem orderIndependent_of_mutualPair :
    ∃ store, Reachable store ∧ (store.node 2).tree? = some 0 ∧ store.Unasked 0 ∧
      store.OrderIndependent 0 2 ∧
      (criticalPaths defaultConfidenceFloor 0 (store.ask [2])).1 =
        (criticalPaths defaultConfidenceFloor 0 (store.ask [1])).1 := by
  have hreachable : Reachable (empty.run mutualPair) :=
    reaches_run .refl mutualPair (by decide +kernel)
  have htree : ((empty.run mutualPair).node 2).tree? = some 0 := by decide +kernel
  have hother : ((empty.run mutualPair).node 1).tree? = some 0 := by decide +kernel
  have hsize : (empty.run mutualPair).nodes.size = 3 := by decide +kernel
  have hmemos : ∀ id < 3, ((empty.run mutualPair).node id).memoAt?
      ((empty.run mutualPair).tree 0).revision = none := by decide +kernel
  have hraised : (empty.run mutualPair).compoundNow 2 =
      ((empty.run mutualPair).node 2).severity.raised
      (heaviest (((empty.run mutualPair).dependenciesOf 2).map
          (empty.run mutualPair).compoundNow)) := by
    decide +kernel
  generalize empty.run mutualPair = store at *
  have hunasked : store.Unasked 0 := by
    rw [← hsize] at hmemos
    exact unasked_of_lt hmemos
  obtain ⟨hiff, hpaths⟩ := orderIndependent_iff hreachable htree hunasked
  refine ⟨store, hreachable, htree, hunasked, hiff.mpr hraised, hpaths _ 0 [2] [1] ?_⟩
  intro other hmem
  rcases List.mem_pair.mp hmem with rfl | rfl
  · exact htree
  · exact hother

/-- Node 1 answers differently once node 2 has been asked. -/
theorem not_orderIndependent_of_mutualPair :
    ∃ store, Reachable store ∧ (store.node 1).tree? = some 0 ∧ store.Unasked 0 ∧
      store.compound? 1 = some .medium ∧ (store.ask [2]).compound? 1 = some .high ∧
      ¬ store.OrderIndependent 0 1 := by
  have hreachable : Reachable (empty.run mutualPair) :=
    reaches_run .refl mutualPair (by decide +kernel)
  have htree : ((empty.run mutualPair).node 1).tree? = some 0 := by decide +kernel
  have hother : ((empty.run mutualPair).node 2).tree? = some 0 := by decide +kernel
  have hsize : (empty.run mutualPair).nodes.size = 3 := by decide +kernel
  have hmemos : ∀ id < 3, ((empty.run mutualPair).node id).memoAt?
      ((empty.run mutualPair).tree 0).revision = none := by decide +kernel
  have hfirst : (empty.run mutualPair).compound? 1 = some .medium := by decide +kernel
  have hlater : ((empty.run mutualPair).ask [2]).compound? 1 = some .high := by decide +kernel
  generalize empty.run mutualPair = store at *
  have hunasked : store.Unasked 0 := by
    rw [← hsize] at hmemos
    exact unasked_of_lt hmemos
  refine ⟨store, hreachable, htree, hunasked, hfirst, hlater, fun hindependent => ?_⟩
  have hsame := hindependent [] [2] fun other hmem => by
    rw [List.mem_singleton.mp hmem]
    exact hother
  rw [hlater] at hsame
  exact absurd (hfirst.symm.trans hsame) (by decide)

end RiskScan.Store

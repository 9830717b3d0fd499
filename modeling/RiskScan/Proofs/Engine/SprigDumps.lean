import RiskScan.Proofs.Engine.Sprigs
/-!
# Dumps of sprigs

A sprig is dumped in the same way in whatever store it stands, but for the ids, which are all moved
by the slot that it stands in. Its nodes depend on nothing outside, so their compound severities are
told by the sprig alone.
-/

namespace RiskScan

open Store Engine

/-! ### Dumps behind some other slots -/

namespace Dump

mutual

/-- The same dump with all ids moved by an offset. -/
def shift (offset : Nat) : Dump → Dump
  | .node fields children => .node
    { fields with
      id := fields.id.map (· + offset)
      dependencies := fields.dependencies.map (· + offset) } (shiftAll offset children)

def shiftAll (offset : Nat) : List Dump → List Dump
  | [] => []
  | dump :: dumps => dump.shift offset :: shiftAll offset dumps

end

theorem shiftAll_eq_map (offset : Nat) (dumps : List Dump) :
    shiftAll offset dumps = dumps.map (shift offset) := by
  induction dumps with
  | nil => rw [shiftAll, List.map_nil]
  | cons dump dumps ih => rw [shiftAll, ih, List.map_cons]

/-- Two dumps that are the same but for one offset between all their ids. -/
def Alike (first second : Dump) : Prop :=
  ∃ offset other, first.shift offset = second.shift other

end Dump

/-- What a dump tells of a node in a slot. -/
def Node.dumpFields (node : Node) (slot : Nat) (compound : Severity) (dependencies : List Nat) :
    DumpFields where
  id := some slot
  kind := node.kind
  description := node.description
  severity := node.severity
  compound := compound
  evidence := node.evidence
  confidence := node.confidence
  reasoning := node.reasoning
  mitigations := node.mitigations
  dependencies := dependencies

namespace Sprig

/-- The dump of a child of a finding. A child that depends on the finding is raised by its
severity. -/
def dumpChild (sprig : Sprig) (slot place : Nat) (child : Bud × Bool) : Dump :=
  let severity := child.1.node.severity
  if child.2 then
    .node (child.1.node.dumpFields (slot + 1 + place)
      (severity.raised (heaviest [sprig.finding.node.severity])) [slot]) []
  else .node (child.1.node.dumpFields (slot + 1 + place) severity []) []

/-- The dump of a sprig whose finding stands in a slot. -/
def dump (sprig : Sprig) (slot : Nat) : Dump :=
  .node (sprig.finding.node.dumpFields slot sprig.finding.node.severity [])
    (sprig.children.mapIdx (sprig.dumpChild slot))

variable {sprig : Sprig} {store : Store} {tree : TreeId} {id : NodeId} {slot : Nat}

theorem shift_dump (sprig : Sprig) (slot offset : Nat) :
    (sprig.dump slot).shift offset = sprig.dump (slot + offset) := by
  have hchild : ∀ place child,
      (sprig.dumpChild slot place child).shift offset =
        sprig.dumpChild (slot + offset) place child := by
    intro place child
    have hplace : slot + 1 + place + offset = slot + offset + 1 + place := by omega
    unfold dumpChild
    dsimp only
    split <;> simp [Dump.shift, Dump.shiftAll, Node.dumpFields, hplace]
  have hchildren : (sprig.children.mapIdx (sprig.dumpChild slot)).map (Dump.shift offset) =
      sprig.children.mapIdx (sprig.dumpChild (slot + offset)) :=
    List.ext_getElem (by simp) fun place _ _ => by simp [hchild]
  simp [dump, Dump.shift, Dump.shiftAll_eq_map, hchildren, Node.dumpFields]

theorem alike_dump (sprig : Sprig) (slot other : Nat) :
    (sprig.dump slot).Alike (sprig.dump other) :=
  ⟨other, slot, by rw [shift_dump, shift_dump, Nat.add_comm]⟩

end Sprig

theorem Store.dumpFields_placed {store : Store} {id : NodeId} {node : Node} {home : Membership}
    {parentSlot : Nat} {children : List NodeId} {dependencies : List Nat}
    (h : { store.node id with memo := none } = node.placed home parentSlot children dependencies)
    (compound : Severity) :
    store.dumpFields id compound = node.dumpFields home.slot compound dependencies := by
  simp only [Node.placed, Node.mk.injEq] at h
  simp only [Store.dumpFields, Node.dumpFields, Node.slot?, h, Option.map_some]

theorem Outline.dumpedAll_eq_map (store : Store) (outlines : List Outline) :
    dumpedAll store outlines = outlines.map (dumped store) := by
  induction outlines with
  | nil => rw [dumpedAll, List.map_nil]
  | cons outline outlines ih => rw [dumpedAll, ih, List.map_cons]

theorem Store.outlineWithin_of_childless {store : Store} {id : NodeId}
    (h : (store.node id).children = []) (fuel : Nat) :
    store.outlineWithin fuel id = .node id [] := by
  cases fuel with
  | zero => rfl
  | succ fuel => rw [outlineWithin, h, List.map_nil]

namespace Sprig.Stands

variable {sprig : Sprig} {store : Store} {tree : TreeId} {id : NodeId} {slot : Nat}
  (h : sprig.Stands tree id slot store)

include h

theorem getElem?_children {place : Nat} (hplace : place < sprig.children.length) :
    { store.node (id + 1 + place) with memo := none } = sprig.children[place].1.node.placed
      ⟨tree, slot + 1 + place⟩ slot [] (if sprig.children[place].2 then [slot] else []) :=
  h.child (List.getElem?_eq_getElem hplace)

variable (hsound : ArenaSound store)

include hsound

theorem dependenciesOf : store.dependenciesOf id = [] := by
  obtain ⟨parentSlot, hfinding⟩ := h.finding
  have hnone := congrArg Node.dependencies hfinding
  rw [hsound.dependenciesOf_eq h.membership, show (store.node id).dependencies = [] from hnone,
    List.map_nil]

theorem dependenciesOf_child {place : Nat} (hplace : place < sprig.children.length) :
    store.dependenciesOf (id + 1 + place) = if sprig.children[place].2 then [id] else [] := by
  have hnode := h.getElem?_children hplace
  have hmembership := congrArg Node.membership hnode
  have hslots : (store.node (id + 1 + place)).dependencies =
      if sprig.children[place].2 then [slot] else [] :=
    congrArg Node.dependencies hnode
  rw [hsound.dependenciesOf_eq hmembership, hslots]
  split
  · rw [List.map_singleton, hsound.nodeAt h.membership]
  · rw [List.map_nil]

theorem shallow {other : NodeId}
    (hother : other = id ∨ ∃ place < sprig.children.length, other = id + 1 + place) :
    store.Shallow other := by
  intro target htarget
  rw [Store.DependsOn] at htarget
  rcases hother with rfl | ⟨place, hplace, rfl⟩
  · rw [h.dependenciesOf hsound] at htarget
    cases htarget
  · rw [h.dependenciesOf_child hsound hplace] at htarget
    split at htarget
    · rw [List.mem_singleton.mp htarget, h.dependenciesOf hsound]
    · cases htarget

variable (hexact : MemosExact store)

include hexact

theorem compoundNow : store.compoundNow id = sprig.finding.node.severity := by
  rw [(h.shallow hsound (Or.inl rfl)).compoundNow_eq hsound hexact,
    if_pos (h.dependenciesOf hsound), h.severity]

theorem dumped_child {place : Nat} (hplace : place < sprig.children.length) :
    (Outline.node (id + 1 + place) []).dumped store =
      sprig.dumpChild slot place sprig.children[place] := by
  have hnode := h.getElem?_children hplace
  have hseverity := congrArg Node.severity hnode
  change (store.node (id + 1 + place)).severity = sprig.children[place].1.node.severity at hseverity
  rw [Outline.dumped, Outline.dumpedAll, dumpFields_placed hnode,
    (h.shallow hsound (Or.inr ⟨place, hplace, rfl⟩)).compoundNow_eq hsound hexact,
    h.dependenciesOf_child hsound hplace, hseverity, Sprig.dumpChild]
  cases sprig.children[place].2 <;> simp [h.severity]

/-- A sprig is dumped in the same way in whatever store it stands. -/
theorem dump_eq : (Store.dump id store).1 = sprig.dump slot := by
  have hsettled : ∀ other, (other = id ∨ ∃ place < sprig.children.length, other = id + 1 + place) →
      store.Settled other :=
    fun _ hother => (h.shallow hsound hother).settled hsound hexact
  have hclosed : ∀ other, (other = id ∨ ∃ place < sprig.children.length, other = id + 1 + place) →
      ∀ child ∈ (store.node other).children,
        child = id ∨ ∃ place < sprig.children.length, child = id + 1 + place := by
    rintro other (rfl | ⟨place, hplace, rfl⟩) child hchild
    · rw [h.children] at hchild
      obtain ⟨place, hplace, rfl⟩ := List.mem_map.mp hchild
      exact Or.inr ⟨place, List.mem_range.mp hplace, rfl⟩
    · have hnone : (store.node (id + 1 + place)).children = [] :=
        congrArg Node.children (h.getElem?_children hplace)
      rw [hnone] at hchild
      cases hchild
  -- The outline ends below the children, however deep it could go.
  have houtline : store.outline id =
      .node id ((List.range sprig.children.length).map fun place => .node (id + 1 + place) []) := by
    obtain ⟨fuel, hfuel⟩ :=
      Nat.exists_eq_succ_of_ne_zero (Nat.ne_zero_of_lt (lt_size_of_membership h.membership))
    rw [outline, hfuel, outlineWithin, h.children, List.map_map]
    congr 1
    refine List.map_congr_left fun place hplace => ?_
    have hnone : (store.node (id + 1 + place)).children = [] :=
      congrArg Node.children (h.getElem?_children (List.mem_range.mp hplace))
    exact outlineWithin_of_childless hnone fuel
  have hchildren :
      ((List.range sprig.children.length).map fun place => Outline.node (id + 1 + place) []).map
      (Outline.dumped store) = sprig.children.mapIdx (sprig.dumpChild slot) := by
    refine List.ext_getElem (by simp) fun place _ hplace => ?_
    rw [List.length_mapIdx] at hplace
    simpa using h.dumped_child hsound hexact hplace
  obtain ⟨parentSlot, hfinding⟩ := h.finding
  calc (Store.dump id store).1
      = (store.outline id).dumped store := (shown_ask_of_settled hsettled hclosed (Or.inl rfl) []).1
    _ = sprig.dump slot := by
      rw [houtline, Outline.dumped, Outline.dumpedAll_eq_map, hchildren, dumpFields_placed hfinding,
        h.compoundNow hsound hexact, Sprig.dump]

end Sprig.Stands

end RiskScan

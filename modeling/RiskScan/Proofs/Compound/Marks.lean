import RiskScan.Proofs.Compound.Criticality
/-!
# Marks

Which nodes of a tree are critical can be told from what is marked in its slots: severities,
confidences and dependencies. If new slots depend on each other only, and no old one changes, then
the tree has the critical nodes that it had before, and those that the new slots would have in a
tree of their own.
-/

namespace RiskScan

/-- What a node brings to the critical nodes of its tree. -/
structure Mark where
  severity : Severity
  confidence : Confidence
  dependencies : List Nat := []

def Node.mark (node : Node) : Mark :=
  ⟨node.severity, node.confidence, node.dependencies⟩

/-- The same mark behind some other slots. -/
def Mark.shift (offset : Nat) (mark : Mark) : Mark :=
  { mark with dependencies := mark.dependencies.map (· + offset) }

@[simp] theorem Mark.shift_shift (mark : Mark) (inner outer : Nat) :
    (mark.shift inner).shift outer = mark.shift (outer + inner) := by
  simp [shift, Nat.add_comm]

theorem Severity.weight_eq_max_iff (severity : Severity) :
    severity.weight = maxWeight ↔ severity = critical := by
  cases severity <;> decide

/-- A mark that is critical by itself. -/
def Mark.Critical (floor : Float) (mark : Mark) : Prop :=
  mark.severity = .critical ∧ floor ≤ mark.confidence.value

/-- What is marked in the slots of a tree, or of a part of one. -/
abbrev Marks := List Mark

namespace Marks

def graph (marks : Marks) : DependencyGraph where
  weight slot := (marks[slot]?.map fun mark => mark.severity.weight).getD 0
  weight_le slot := by
    cases marks[slot]? with
    | none => exact Nat.zero_le _
    | some mark => exact Severity.weight_le mark.severity
  dependencies slot := (marks[slot]?.map Mark.dependencies).getD []
  remembered _ := none

/-- The compound weight in a slot. -/
def compound (marks : Marks) (slot : Nat) : Nat :=
  marks.graph.answer (Finset.range marks.length) slot

def SomeCritical (floor : Float) (marks : Marks) : Prop :=
  ∃ slot mark, marks[slot]? = some mark ∧ marks.compound slot = Severity.maxWeight ∧
    floor ≤ mark.confidence.value

instance (floor : Float) (marks : Marks) : Decidable (SomeCritical floor marks) :=
  decidable_of_iff (∃ slot < marks.length, ∃ mark ∈ marks[slot]?,
    marks.compound slot = Severity.maxWeight ∧ floor ≤ mark.confidence.value) <| by
    constructor
    · rintro ⟨slot, -, mark, hmark, hcritical⟩
      exact ⟨slot, mark, hmark, hcritical⟩
    · rintro ⟨slot, mark, hmark, hcritical⟩
      exact ⟨slot, (List.getElem?_eq_some_iff.mp hmark).1, mark, hmark, hcritical⟩

def Closed (marks : Marks) : Prop :=
  ∀ mark ∈ marks, ∀ slot ∈ mark.dependencies, slot < marks.length

/-- Some slots, and behind them others which refer to each other. -/
def followedBy (first second : Marks) : Marks :=
  first ++ second.map (Mark.shift first.length)

variable {marks first second : Marks} {mark : Mark} {slot : Nat} {floor : Float}

theorem weight_graph (h : marks[slot]? = some mark) :
    marks.graph.weight slot = mark.severity.weight := by
  simp [graph, h]

theorem dependencies_graph (h : marks[slot]? = some mark) :
    marks.graph.dependencies slot = mark.dependencies := by
  simp [graph, h]

theorem Closed.dependency_lt (h : Closed marks) {target : Nat}
    (htarget : target ∈ marks.graph.dependencies slot) : target < marks.length := by
  cases hmark : marks[slot]? with
  | none =>
    simp only [graph, hmark] at htarget
    cases htarget
  | some mark =>
    rw [dependencies_graph hmark] at htarget
    exact h mark (List.mem_of_getElem? hmark) target htarget

@[simp] theorem length_followedBy (first second : Marks) :
    (followedBy first second).length = first.length + second.length := by
  simp [followedBy]

@[simp] theorem followedBy_nil (marks : Marks) : followedBy marks [] = marks :=
  List.append_nil marks

theorem followedBy_assoc (first second third : Marks) :
    followedBy (followedBy first second) third = followedBy first (followedBy second third) := by
  simp [followedBy, Function.comp_def]

theorem getElem?_followedBy_left (hslot : slot < first.length) :
    (followedBy first second)[slot]? = first[slot]? :=
  List.getElem?_append_left hslot

theorem getElem?_followedBy_right (first second : Marks) (slot : Nat) :
    (followedBy first second)[slot + first.length]? =
      second[slot]?.map (Mark.shift first.length) := by
  rw [followedBy, List.getElem?_append_right (Nat.le_add_left _ _), Nat.add_sub_cancel,
    List.getElem?_map]

theorem Closed.nil : Closed [] :=
  fun _ hmark => absurd hmark List.not_mem_nil

theorem Closed.followedBy (hfirst : Closed first) (hsecond : Closed second) :
    Closed (first.followedBy second) := by
  intro mark hmark slot hslot
  rw [length_followedBy]
  rcases List.mem_append.mp hmark with hold | hnew
  · have := hfirst mark hold slot hslot
    omega
  · obtain ⟨own, hown, rfl⟩ := List.mem_map.mp hnew
    obtain ⟨place, hplace, rfl⟩ := List.mem_map.mp hslot
    have := hsecond own hown place hplace
    omega

/-- What has been put behind other slots refers to itself if nothing refers beyond the end. -/
theorem Closed.of_followedBy (h : Closed (first.followedBy second)) : Closed second := by
  intro mark hmark slot hslot
  have hmem : mark.shift first.length ∈ first.followedBy second :=
    List.mem_append_right _ (List.mem_map_of_mem hmark)
  have hlt := h _ hmem (slot + first.length) (List.mem_map_of_mem hslot)
  rw [length_followedBy] at hlt
  omega

/-! ### Critical slots of a part -/

theorem Closed.occurs_left (hfirst : Closed first) (second : Marks) :
    DependencyGraph.Occurs (· < first.length) (fun slot => slot) first.graph
      (first.followedBy second).graph where
  injective _ _ heq := heq
  closed _ htarget := hfirst.dependency_lt htarget
  weight {slot} hslot := by simp only [graph, getElem?_followedBy_left hslot]
  dependencies {slot} hslot := by simp only [graph, getElem?_followedBy_left hslot, List.map_id']

theorem Closed.occurs_right (hsecond : Closed second) (first : Marks) :
    DependencyGraph.Occurs (· < second.length) (· + first.length) second.graph
      (first.followedBy second).graph where
  injective _ _ heq := Nat.add_right_cancel heq
  closed _ htarget := hsecond.dependency_lt htarget
  weight {slot} hslot := by
    simp only [graph, getElem?_followedBy_right, Option.map_map]
    rfl
  dependencies {slot} hslot := by
    have hmark := List.getElem?_eq_getElem hslot
    simp only [graph, getElem?_followedBy_right, hmark, Option.map_some, Option.getD_some]
    rfl

theorem compound_followedBy_left (hfirst : Closed first) (hslot : slot < first.length) :
    (first.followedBy second).compound slot = first.compound slot := by
  refine (hfirst.occurs_left second).answer_eq (fun place hplace => ?_) hslot
  rw [length_followedBy, Finset.mem_range, Finset.mem_range]
  omega

theorem compound_followedBy_right (hsecond : Closed second) (hslot : slot < second.length) :
    (first.followedBy second).compound (slot + first.length) = second.compound slot := by
  refine (hsecond.occurs_right first).answer_eq (fun place hplace => ?_) hslot
  rw [length_followedBy, Finset.mem_range, Finset.mem_range]
  omega

theorem not_someCritical_nil : ¬ SomeCritical floor [] := by
  rintro ⟨slot, mark, hmark, -⟩
  cases hmark

/-- Putting one part behind another makes nothing critical, and nothing else. -/
theorem someCritical_followedBy (hfirst : Closed first) (hsecond : Closed second) :
    SomeCritical floor (first.followedBy second) ↔
      SomeCritical floor first ∨ SomeCritical floor second := by
  constructor
  · rintro ⟨slot, mark, hmark, hmax, hfloor⟩
    by_cases hslot : slot < first.length
    · rw [getElem?_followedBy_left hslot] at hmark
      rw [compound_followedBy_left hfirst hslot] at hmax
      exact Or.inl ⟨slot, mark, hmark, hmax, hfloor⟩
    · obtain ⟨place, rfl⟩ := Nat.exists_eq_add_of_le' (Nat.le_of_not_lt hslot)
      rw [getElem?_followedBy_right, Option.map_eq_some_iff] at hmark
      obtain ⟨own, hown, rfl⟩ := hmark
      obtain ⟨hplace, -⟩ := List.getElem?_eq_some_iff.mp hown
      rw [compound_followedBy_right hsecond hplace] at hmax
      exact Or.inr ⟨place, own, hown, hmax, hfloor⟩
  · rintro (⟨slot, mark, hmark, hmax, hfloor⟩ | ⟨slot, mark, hmark, hmax, hfloor⟩)
    · obtain ⟨hslot, -⟩ := List.getElem?_eq_some_iff.mp hmark
      refine ⟨slot, mark, ?_, ?_, hfloor⟩
      · rw [getElem?_followedBy_left hslot, hmark]
      · rw [compound_followedBy_left hfirst hslot, hmax]
    · obtain ⟨hslot, -⟩ := List.getElem?_eq_some_iff.mp hmark
      refine ⟨slot + first.length, mark.shift first.length, ?_, ?_, hfloor⟩
      · rw [getElem?_followedBy_right, hmark, Option.map_some]
      · rw [compound_followedBy_right hsecond hslot, hmax]

/-! ### Slots that depend on one other at most -/

theorem compound_of_independent (hmark : marks[slot]? = some mark)
    (hnone : mark.dependencies = []) :
    marks.compound slot = mark.severity.weight := by
  rw [compound, DependencyGraph.answer, DependencyGraph.compound_of_not_remembered rfl,
    dependencies_graph hmark, hnone, List.map_nil, weight_graph hmark]
  exact raise_zero (Severity.weight_le _)

theorem compound_of_dependent {other : Mark} {target : Nat} (hmark : marks[slot]? = some mark)
    (hdependencies : mark.dependencies = [target]) (hother : marks[target]? = some other)
    (hnone : other.dependencies = []) :
    marks.compound slot = raise mark.severity.weight other.severity.weight := by
  have hcontribution : ∀ closed, marks.graph.contribution closed target =
      other.severity.weight := by
    intro closed
    rw [DependencyGraph.contribution, DependencyGraph.compound_of_not_remembered rfl,
      dependencies_graph hother, hnone, List.map_nil, weight_graph hother]
    split
    · exact raise_zero (Severity.weight_le _)
    · rfl
  rw [compound, DependencyGraph.answer, DependencyGraph.compound_of_not_remembered rfl,
    dependencies_graph hmark, hdependencies, List.map_singleton, weight_graph hmark, hcontribution]
  rfl

theorem closed_of_independent (h : ∀ mark ∈ marks, mark.dependencies = []) : Closed marks := by
  intro mark hmark slot hslot
  rw [h mark hmark] at hslot
  cases hslot

theorem closed_pair {child : Mark} (hnone : mark.dependencies = [])
    (hchild : child.dependencies = [0]) :
    Closed [mark, child] := by
  intro other hother slot hslot
  rcases List.mem_pair.mp hother with rfl | rfl
  · rw [hnone] at hslot
    cases hslot
  · rw [hchild] at hslot
    exact List.mem_singleton.mp hslot ▸ Nat.zero_lt_two

theorem someCritical_of_independent (h : ∀ mark ∈ marks, mark.dependencies = []) :
    SomeCritical floor marks ↔ ∃ mark ∈ marks, mark.Critical floor := by
  constructor
  · rintro ⟨slot, mark, hmark, hmax, hfloor⟩
    have hmem := List.mem_of_getElem? hmark
    rw [compound_of_independent hmark (h mark hmem), Severity.weight_eq_max_iff] at hmax
    exact ⟨mark, hmem, hmax, hfloor⟩
  · rintro ⟨mark, hmem, hcritical, hfloor⟩
    obtain ⟨slot, hmark⟩ := List.mem_iff_getElem?.mp hmem
    refine ⟨slot, mark, hmark, ?_, hfloor⟩
    rw [compound_of_independent hmark (h mark hmem), hcritical]
    rfl

theorem someCritical_pair {child : Mark} (hnone : mark.dependencies = [])
    (hchild : child.dependencies = [0]) :
    SomeCritical floor [mark, child] ↔ mark.Critical floor ∨
      raise child.severity.weight mark.severity.weight = Severity.maxWeight ∧
        floor ≤ child.confidence.value := by
  have hfirst : compound [mark, child] 0 = mark.severity.weight := compound_of_independent rfl hnone
  have hsecond : compound [mark, child] 1 = raise child.severity.weight mark.severity.weight :=
    compound_of_dependent rfl hchild rfl hnone
  constructor
  · rintro ⟨slot, other, hother, hmax, hfloor⟩
    match slot with
    | 0 =>
      cases hother
      rw [hfirst, Severity.weight_eq_max_iff] at hmax
      exact Or.inl ⟨hmax, hfloor⟩
    | 1 =>
      cases hother
      exact Or.inr ⟨hsecond ▸ hmax, hfloor⟩
  · rintro (⟨hcritical, hfloor⟩ | ⟨hmax, hfloor⟩)
    · exact ⟨0, mark, rfl, hfirst.trans ((Severity.weight_eq_max_iff _).mpr hcritical), hfloor⟩
    · exact ⟨1, child, rfl, hsecond.trans hmax, hfloor⟩

end Marks

namespace Store

variable {store : Store} {tree : TreeId} {floor : Float}

def marks (store : Store) (tree : TreeId) : Marks :=
  (store.tree tree).nodes.toList.map fun id => (store.node id).mark

theorem getElem?_marks (store : Store) (tree : TreeId) (slot : Nat) :
    (store.marks tree)[slot]? = (store.nodeIn? tree slot).map Node.mark := by
  rw [marks, List.getElem?_map, Array.getElem?_toList, nodeIn?, Option.map_map]
  rfl

@[simp] theorem length_marks (store : Store) (tree : TreeId) :
    (store.marks tree).length = (store.tree tree).nodes.size := by
  rw [marks, List.length_map, Array.length_toList]

theorem graph_marks (store : Store) (tree : TreeId) :
    (store.marks tree).graph = (store.graph tree).forget := by
  apply DependencyGraph.ext
  · funext slot
    simp only [Marks.graph, getElem?_marks, Option.map_map]
    rfl
  · funext slot
    simp only [Marks.graph, getElem?_marks, Option.map_map]
    rfl
  · rfl

theorem ArenaSound.closed_marks (hsound : ArenaSound store) (tree : TreeId) :
    (store.marks tree).Closed := by
  intro mark hmark slot hslot
  obtain ⟨id, hid, rfl⟩ := List.mem_map.mp hmark
  obtain ⟨place, hplace⟩ := hsound.membership_of_mem_toList hid
  rw [length_marks]
  exact hsound.dependency_lt hplace hslot

theorem exists_critical_iff (hsound : ArenaSound store) (hbounded : MemosBounded store) :
    (∃ id ∈ (store.tree tree).nodes.toList, store.Critical floor id) ↔
      (store.marks tree).SomeCritical floor := by
  have hcompound : ∀ slot, (store.marks tree).compound slot =
      (store.graph tree).forget.answer (store.slots tree) slot := by
    intro slot
    rw [Marks.compound, graph_marks, length_marks, slots]
  constructor
  · rintro ⟨id, hid, hcritical, hfloor⟩
    obtain ⟨slot, hslot⟩ := hsound.membership_of_mem_toList hid
    refine ⟨slot, (store.node id).mark, ?_, ?_, hfloor⟩
    · rw [getElem?_marks, hsound.nodeIn? hslot, Option.map_some]
    · rwa [hcompound, ← compoundNow_eq_critical_iff hsound hbounded hslot]
  · rintro ⟨slot, mark, hmark, hmax, hfloor⟩
    rw [getElem?_marks, Option.map_eq_some_iff] at hmark
    obtain ⟨node, hnode, rfl⟩ := hmark
    obtain ⟨id, hget, rfl⟩ := nodeIn?_eq_some hnode
    have hslot := hsound.membership_of_mem hget
    refine ⟨id, Array.mem_toList_iff.mpr (Array.mem_of_getElem? hget), ?_, hfloor⟩
    rwa [compoundNow_eq_critical_iff hsound hbounded hslot, ← hcompound]

end Store

end RiskScan

import RiskScan.Proofs.Compound.Settled
import RiskScan.Proofs.Engine.Growth
import RiskScan.Proofs.Engine.Running
import RiskScan.Proofs.Store.Traversal
/-!
# The shape of a trunk's tree

Analyzers share the four branches, and each of them may stop at any point. What they have in common
is how they go on in one step: a new node is made, it is attached to a branch or to a finding, a
child of a finding is made to depend on it, or something is changed that is neither shape nor
dependency. Whatever comes about in such steps has the shape that it should have: findings under the
branches, children under the findings, nothing below these, and no dependencies but those of
children on their own findings.
-/

namespace RiskScan

open Store Relation

/-- The store after an analysis, whether or not it failed. -/
def Analysis.after {α : Type} (analysis : Analysis α) (store : Store) : Store :=
  match analysis store with
  | .ok _ store => store
  | .error _ store => store

/-- A detached node without children that is added to a registered one takes the next slot of its
tree. -/
theorem Store.Strict.after_addChild_childless {store : Store} {parent child : NodeId}
    {home : Membership} (h : Strict store) (hparent : (store.node parent).membership = some home)
    (hchildless : (store.node child).children = [])
    (hallowed : store.childError? parent child = none) : (Store.addChild parent child).after store =
      ((store.link parent child).enrol home.tree child).setParentSlot child home.slot := by
  obtain ⟨hne, -, hdetached⟩ := h.detached_of_childError? hallowed
  have hregister : register home.tree child (store.link parent child) =
      .ok () ((store.link parent child).enrol home.tree child) := by
    apply register_childless
    · rw [membership_link, hdetached]
    · rw [children_link store child child (lt_size_of_membership hparent), if_neg hne, hchildless]
  rw [after_addChild, hallowed, hparent]
  dsimp only
  rw [hregister]

namespace Engine

variable {trunk : Trunk} {store after : Store} {id parent finding child : NodeId} {branch : Branch}

/-- A node that hangs under a branch. -/
def Trunk.Finding (trunk : Trunk) (store : Store) (id : NodeId) : Prop :=
  ∃ branch, store.Owns (trunk.branches.get branch) id

/-- A node under which others may be attached: a branch or a finding. -/
def Trunk.Bearer (trunk : Trunk) (store : Store) (id : NodeId) : Prop :=
  (∃ branch, id = trunk.branches.get branch) ∨ trunk.Finding store id

/-- A step that keeps to the shape of a tree. -/
inductive Trunk.Step (trunk : Trunk) (store : Store) : Store → Prop
  | create {node : Node} (fresh : node.Fresh) : trunk.Step store (store.create node).2
  | attach {parent child : NodeId} (bearer : trunk.Bearer store parent)
    (known : child < store.nodes.size)
    (childless : (store.node child).children = []) :
      trunk.Step store ((Operation.addChild parent child).after store)
  | depend {finding child : NodeId} (isFinding : trunk.Finding store finding)
      (owned : store.Owns finding child) :
      trunk.Step store ((Operation.addDependency child finding).after store)
  | edit {after : Store} (proceeds : store.Proceeds after) (sameShape : SameShape store after)
      (dependencies : ∀ id, (after.node id).dependencies = (store.node id).dependencies) :
      trunk.Step store after

/-- Any number of such steps. -/
abbrev Trunk.Steps (trunk : Trunk) : Store → Store → Prop :=
  ReflTransGen trunk.Step

/-- The root of a tree has the branches under it, each branch has findings, a finding may have
children, and these have none. Only children of findings have dependencies, each on its own
finding. -/
structure Trunk.Shaped (trunk : Trunk) (store : Store) : Prop where
  root : (store.node trunk.branches.root).membership = some ⟨trunk.tree, 0⟩
  branches : (store.node trunk.branches.root).children = trunk.branches.all
  branch {place : Nat} {id : NodeId} : trunk.branches.all[place]? = some id →
    (store.node id).membership = some ⟨trunk.tree, place + 1⟩
  leaf {finding child : NodeId} : trunk.Finding store finding → store.Owns finding child →
    (store.node child).children = []
  dependency {id : NodeId} {place slot : Nat} : (store.node id).membership =
    some ⟨trunk.tree, place⟩ →
    slot ∈ (store.node id).dependencies →
      ∃ finding, trunk.Finding store finding ∧ store.Owns finding id ∧
        (store.node finding).membership = some ⟨trunk.tree, slot⟩

theorem Trunk.mem_all (trunk : Trunk) (branch : Branch) :
    trunk.branches.get branch ∈ trunk.branches.all :=
  List.mem_map_of_mem (Branch.mem_all branch)

theorem Trunk.Stands.attached (h : trunk.Stands store) (hid : trunk.Finding store id) :
    ∃ slot, (store.node id).membership = some ⟨trunk.tree, slot⟩ := by
  obtain ⟨branch, howns⟩ := hid
  obtain ⟨place, hplace⟩ := h.branch branch
  obtain ⟨slot, -, hslot, -⟩ := h.reachable.strict.child_of_attached howns hplace
  exact ⟨slot, hslot⟩

theorem Trunk.Stands.attached_of_bearer (h : trunk.Stands store) (hid : trunk.Bearer store id) :
    ∃ slot, (store.node id).membership = some ⟨trunk.tree, slot⟩ := by
  rcases hid with ⟨branch, rfl⟩ | hfinding
  · exact h.branch branch
  · exact h.attached hfinding

theorem Trunk.Stands.not_owns_root (h : trunk.Stands store) :
    ¬ store.Owns id trunk.branches.root := by
  rw [← h.root]
  exact h.reachable.strict.not_owns_root h.planted

theorem Trunk.Step.proceeds (h : trunk.Step store after) (hstands : trunk.Stands store) :
    store.Proceeds after := by
  have hlt : ∀ {id : NodeId}, trunk.Bearer store id → id < store.nodes.size := by
    intro id hid
    obtain ⟨slot, hslot⟩ := hstands.attached_of_bearer hid
    exact lt_size_of_membership hslot
  cases h with
  | create fresh => exact proceeds_create store fresh
  | attach bearer known _ =>
    refine .step .refl rfl ?_
    simp only [knows, Bool.and_eq_true, decide_eq_true_eq]
    exact ⟨hlt bearer, known⟩
  | depend isFinding owned =>
    refine .step .refl rfl ?_
    simp only [knows, Bool.and_eq_true, decide_eq_true_eq]
    exact ⟨hstands.reachable.arenaSound.child_lt owned, hlt (Or.inr isFinding)⟩
  | edit proceeds _ _ => exact proceeds

namespace Trunk.Shaped

/-! ### Nodes are on one level only -/

section

variable (h : trunk.Shaped store)

include h

theorem branch_ne_root (branch : Branch) : trunk.branches.get branch ≠ trunk.branches.root := by
  obtain ⟨place, hplace⟩ := List.getElem?_of_mem (trunk.mem_all branch)
  have hmembership := h.branch hplace
  intro heq
  rw [heq, h.root] at hmembership
  cases hmembership

theorem owns_root (branch : Branch) :
    store.Owns trunk.branches.root (trunk.branches.get branch) := by
  rw [Owns, h.branches]
  exact trunk.mem_all branch

variable (hstands : trunk.Stands store)

include hstands

theorem bearer_ne_root (hid : trunk.Bearer store id) : id ≠ trunk.branches.root := by
  rcases hid with ⟨branch, rfl⟩ | ⟨branch, howns⟩
  · exact h.branch_ne_root branch
  · rintro rfl
    exact hstands.not_owns_root howns

theorem finding_ne_branch (hid : trunk.Finding store id) (branch : Branch) :
    id ≠ trunk.branches.get branch := by
  rintro rfl
  obtain ⟨other, howns⟩ := hid
  exact h.branch_ne_root other (hstands.reachable.strict.linked.unique howns (h.owns_root branch))

/-- What hangs under a finding is neither a branch nor a finding. -/
theorem not_bearer_of_owns (hfinding : trunk.Finding store finding)
    (howns : store.Owns finding child) :
    ¬ trunk.Bearer store child := by
  have hlinked := hstands.reachable.strict.linked
  rintro (⟨branch, rfl⟩ | ⟨branch, hbranch⟩)
  · exact h.bearer_ne_root hstands (Or.inr hfinding) (hlinked.unique howns (h.owns_root branch))
  · exact h.finding_ne_branch hstands hfinding branch (hlinked.unique howns hbranch)

end

/-! ### Steps -/

theorem of_eq (h : trunk.Shaped store)
    (hchildren : ∀ id, (after.node id).children = (store.node id).children)
    (hmembership : ∀ id, (after.node id).membership = (store.node id).membership)
    (hdependency : ∀ {id : NodeId} {place slot : Nat}, (store.node id).membership =
      some ⟨trunk.tree, place⟩ →
      slot ∈ (after.node id).dependencies → ∃ finding, trunk.Finding store finding ∧
        store.Owns finding id ∧ (store.node finding).membership = some ⟨trunk.tree, slot⟩) :
    trunk.Shaped after := by
  have howns : after.Owns = store.Owns := by
    funext parent child
    rw [Owns, hchildren, Owns]
  have hfinding : trunk.Finding after = trunk.Finding store := by
    funext id
    rw [Finding, howns, Finding]
  constructor
  · rw [hmembership, h.root]
  · rw [hchildren, h.branches]
  · intro place id hid
    rw [hmembership, h.branch hid]
  · intro finding child hisFinding hchild
    rw [hfinding] at hisFinding
    rw [howns] at hchild
    rw [hchildren, h.leaf hisFinding hchild]
  · intro id place slot hid hslot
    rw [hmembership] at hid
    rw [hfinding, howns]
    simp only [hmembership]
    exact hdependency hid hslot

theorem create (h : trunk.Shaped store) {node : Node} (hfresh : node.Fresh) :
    trunk.Shaped (store.create node).2 := by
  have hdependencies : ∀ id, ((store.create node).2.node id).dependencies =
      (store.node id).dependencies :=
    create_keeps Node.dependencies hfresh.dependencies
  refine h.of_eq (create_keeps Node.children hfresh.children)
    (create_keeps Node.membership hfresh.membership) ?_
  intro id place slot hid hslot
  rw [hdependencies] at hslot
  exact h.dependency hid hslot

theorem depend (h : trunk.Shaped store) (hisFinding : trunk.Finding store finding)
    (howned : store.Owns finding child) :
    trunk.Shaped ((Operation.addDependency child finding).after store) := by
  rw [Operation.after_addDependency]
  rcases after_addDependency store child finding with
    hfail | ⟨home, other, hchild, hother, htree, hafter⟩
  · rwa [hfail]
  · have hsame := SameShape.depend store child other.slot home.tree
    rw [hafter]
    refine h.of_eq hsame.children hsame.membership ?_
    intro id place slot hid hslot
    rw [dependencies_depend store id _ _ (lt_size_of_membership hchild)] at hslot
    split at hslot
    · rename_i heq
      subst heq
      rcases mem_insertSlot.mp hslot with rfl | hold
      · rw [hchild, Option.some.injEq] at hid
        subst hid
        exact ⟨finding, hisFinding, howned, by rw [hother, show trunk.tree = other.tree from htree]⟩
      · exact h.dependency hid hold
    · exact h.dependency hid hslot

theorem edit (h : trunk.Shaped store) (hsame : SameShape store after)
    (hdependencies : ∀ id, (after.node id).dependencies = (store.node id).dependencies) :
    trunk.Shaped after := by
  refine h.of_eq hsame.children hsame.membership ?_
  intro id place slot hid hslot
  rw [hdependencies] at hslot
  exact h.dependency hid hslot

theorem attach (h : trunk.Shaped store) (hstands : trunk.Stands store)
    (hbearer : trunk.Bearer store parent) (hknown : child < store.nodes.size)
    (hchildless : (store.node child).children = []) :
    trunk.Shaped ((Operation.addChild parent child).after store) := by
  have hstrict := hstands.reachable.strict
  obtain ⟨slot, hparent⟩ := hstands.attached_of_bearer hbearer
  cases herror : store.childError? parent child with
  | some error => rwa [Operation.after_addChild, after_addChild, herror]
  | none =>
    obtain ⟨hne, -, hdetached⟩ := hstrict.detached_of_childError? herror
    rw [Operation.after_addChild, hstrict.after_addChild_childless hparent hchildless herror]
    set after := ((store.link parent child).enrol trunk.tree child).setParentSlot child slot
    have hchildren : ∀ other, (after.node other).children =
        if other = parent then (store.node other).children ++
          [child] else (store.node other).children := by
      intro other
      rw [children_setParentSlot, children_enrol,
        children_link store child other (lt_size_of_membership hparent)]
    have hmembership : ∀ {other home}, (store.node other).membership = some home →
        (after.node other).membership = some home := by
      intro other home hother
      rw [membership_setParentSlot, membership_enrol _ _ _ (by simpa using hknown),
        if_neg (ne_of_detached hdetached hother), membership_link]
      exact hother
    have hdependencies : ∀ other, (after.node other).dependencies =
        (store.node other).dependencies := by
      intro other
      rw [setParentSlot_keeps Node.dependencies (fun _ _ => rfl),
        enrol_keeps Node.dependencies (fun _ _ => rfl),
        link_keeps Node.dependencies (fun _ _ => rfl) (fun _ _ => rfl)]
    have howns : ∀ {first second}, after.Owns first second ↔
        store.Owns first second ∨ first = parent ∧ second = child := by
      intro first second
      rw [Owns, hchildren, Owns]
      split
      · rename_i heq
        simp [heq]
      · rename_i hother
        simp [hother]
    constructor
    · exact hmembership h.root
    · rw [hchildren, if_neg (h.bearer_ne_root hstands hbearer).symm, h.branches]
    · exact fun hid => hmembership (h.branch hid)
    · -- Either of the two edges may be the new one. An old leaf is no bearer, so nothing hangs
      -- under it now.
      rintro finding leaf ⟨branch, hfinding⟩ hleaf
      rw [howns] at hfinding hleaf
      rw [hchildren]
      rcases hfinding with hfinding | ⟨-, rfl⟩
      · rcases hleaf with hleaf | ⟨-, rfl⟩
        · have hlevel : leaf ≠ parent := by
            rintro rfl
            exact h.not_bearer_of_owns hstands ⟨branch, hfinding⟩ hleaf hbearer
          rw [if_neg hlevel, h.leaf ⟨branch, hfinding⟩ hleaf]
        · rw [if_neg hne, hchildless]
      · rcases hleaf with hleaf | ⟨heq, -⟩
        · rw [Owns, hchildless] at hleaf
          cases hleaf
        · exact absurd heq hne
    · intro id place dependency hid hdependency
      rw [hdependencies] at hdependency
      cases hold : (store.node id).membership with
      | none =>
        rw [hstrict.sound.dependencies_of_detached hold] at hdependency
        cases hdependency
      | some home =>
        rw [hmembership hold, Option.some.injEq] at hid
        subst hid
        obtain ⟨finding, ⟨branch, hfinding⟩, howned, hslot⟩ := h.dependency hold hdependency
        exact ⟨finding, ⟨branch, howns.mpr (Or.inl hfinding)⟩, howns.mpr (Or.inl howned),
          hmembership hslot⟩

/-- What one step keeps. -/
theorem step (h : trunk.Shaped store) (hstands : trunk.Stands store)
    (hstep : trunk.Step store after) :
    trunk.Shaped after := by
  cases hstep with
  | create fresh => exact h.create fresh
  | attach bearer known childless => exact h.attach hstands bearer known childless
  | depend isFinding owned => exact h.depend isFinding owned
  | edit _ sameShape dependencies => exact h.edit sameShape dependencies

end Trunk.Shaped

/-! ### Analyzers -/

theorem Trunk.Steps.proceeds (h : trunk.Steps store after) (hstands : trunk.Stands store) :
    store.Proceeds after := by
  induction h with
  | refl => exact .refl
  | tail _ hstep ih => exact ih.trans (hstep.proceeds (hstands.proceeds ih))

theorem Trunk.Steps.shaped (h : trunk.Steps store after) (hstands : trunk.Stands store)
    (hshaped : trunk.Shaped store) : trunk.Shaped after := by
  induction h with
  | refl => exact hshaped
  | tail hsteps hstep ih => exact ih.step (hstands.proceeds (Steps.proceeds hsteps hstands)) hstep

theorem Trunk.Steps.ask (trunk : Trunk) (store : Store) (ids : List NodeId) :
    trunk.Steps store (store.ask ids) := by
  have hsame : ∀ ids (store : Store), SameShape store (store.ask ids) := by
    intro ids
    induction ids with
    | nil => exact SameShape.refl
    | cons id ids ih => exact fun store => (SameShape.remember store id _).trans (ih _)
  have hproceeds : store.Proceeds (store.ask ids) := Reaches.refl.ask (fun _ => rfl) ids
  exact .single
    (.edit hproceeds (hsame ids store) (ask_keeps Node.dependencies (fun _ _ => rfl) store ids))

end Engine

/-- An analyzer that goes on in orderly steps, wherever a trunk stands and wherever it stops. -/
def Analyzer.Orderly (analyzer : Analyzer) : Prop :=
  ∀ (trunk : Engine.Trunk) (file : SourceFile) (store : Store), trunk.Stands store →
    trunk.Steps store ((analyzer.analyze file trunk.branches).after store)

namespace Engine

variable {trunk : Trunk} {store : Store} {analyzers : List Analyzer}

/-! What every analyzer does to the stores in which the trunk stands, all of them do together. -/

section

variable {R : Store → Store → Prop} (hrefl : ∀ store, R store store)
  (htrans : ∀ {first second third}, trunk.Stands first → R first second → R second third →
    R first third)
  (hproceeds : ∀ {before after}, trunk.Stands before → R before after → before.Proceeds after)

include hrefl htrans hproceeds

theorem runAnalyzers_related (file : SourceFile) (findings : List NodeId)
    (hanalyze : ∀ analyzer ∈ analyzers,
      ∀ store, trunk.Stands store → R store ((analyzer.analyze file trunk.branches).after store))
    (hstands : trunk.Stands store) :
    R store (runAnalyzers file trunk.branches analyzers findings store).2 := by
  induction analyzers generalizing findings store with
  | nil => exact hrefl store
  | cons analyzer analyzers ih =>
    obtain ⟨hfirst, hrest⟩ := List.forall_mem_cons.mp hanalyze
    have hrelated := hfirst store hstands
    unfold Analysis.after at hrelated
    rw [runAnalyzers]
    cases hresult : analyzer.analyze file trunk.branches store with
    | error fault after =>
      rw [hresult] at hrelated
      exact hrelated
    | ok found after =>
      rw [hresult] at hrelated
      exact htrans hstands hrelated (ih _ hrest (hstands.proceeds (hproceeds hstands hrelated)))

theorem analyzeSources_related (files : List SourceFile) (hanalyze : ∀ file, ∀ analyzer ∈ analyzers,
      ∀ store, trunk.Stands store → R store ((analyzer.analyze file trunk.branches).after store))
    (hstands : trunk.Stands store) :
    R store (analyzeSources analyzers trunk.branches files store).2 := by
  induction files generalizing store with
  | nil => exact hrefl store
  | cons file files ih =>
    have hfirst := runAnalyzers_related hrefl htrans hproceeds file [] (hanalyze file) hstands
    exact htrans hstands hfirst (ih (hstands.proceeds (hproceeds hstands hfirst)))

end

theorem steps_analyzeSources (horderly : ∀ analyzer ∈ analyzers, analyzer.Orderly)
    (files : List SourceFile) (hstands : trunk.Stands store) :
    trunk.Steps store (analyzeSources analyzers trunk.branches files store).2 :=
  analyzeSources_related (fun _ => .refl) (fun _ hleft hright => hleft.trans hright)
    (fun hstands hsteps => hsteps.proceeds hstands) files
    (fun file analyzer hmem store hstands => horderly analyzer hmem trunk file store hstands)
      hstands

end Engine

end RiskScan

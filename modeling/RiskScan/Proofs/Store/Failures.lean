import RiskScan.Proofs.Store.Traversal
/-!
# Failed operations

Most operations check what they are given before they change anything. Giving a node a child, or a
tree its root, goes on with a registration that could itself be refused half-way, at a descendant
that belongs to another tree. As long as no node has been registered on its own this does not
happen: what is below a detached node is detached, so once the checks in front have been passed the
whole subtree joins. Hence an operation that fails has failed in its checks, and the store is what
it was.
-/

namespace RiskScan

open Relation

namespace Operation

variable {store after : Store} {error : OperationError}

theorem eq_of_ofNode_error {operation : Store → Except NodeError Store}
    (h : ofNode operation store = .error error after) : after = store := by
  unfold ofNode at h
  cases hresult : operation store with
  | ok result =>
    rw [hresult] at h
    cases h
  | error cause =>
    rw [hresult] at h
    cases h
    rfl

theorem exists_of_ofTree_error {α : Type} {operation : StoreM α}
    (h : ofTree operation store = .error error after) :
    ∃ cause, operation store = .error cause after := by
  unfold ofTree at h
  cases hresult : operation store with
  | ok result middle =>
    rw [hresult] at h
    cases h
  | error cause middle =>
    rw [hresult] at h
    cases h
    exact ⟨cause, rfl⟩

end Operation

namespace Store

variable {store after : Store} {error : TreeError} {id root parent child target : NodeId}

theorem eq_of_addDependency_error (h : Store.addDependency id target store = .error error after) :
    after = store := by
  unfold Store.addDependency at h
  split at h
  · split at h
    · cases h
    · cases h
      rfl
  · cases h
    rfl

namespace Strict

theorem eq_of_plant_error (h : Strict store) (hroot : root < store.nodes.size)
    (herror : Store.plant root store = .error error after) : after = store := by
  by_cases hfree : (store.node root).hasParent = false ∧ (store.node root).membership = none
  · obtain ⟨planted, hplanted, -⟩ := h.plant_of_free hroot hfree.1 hfree.2
    rw [hplanted] at herror
    cases herror
  · have hafter := after_plant store root
    rw [StoreM.after, herror, if_pos] at hafter
    · exact hafter
    · rwa [not_and_or, Bool.not_eq_false, ← ne_eq, Option.ne_none_iff_isSome] at hfree

theorem eq_of_addChild_error (h : Strict store) (hparent : parent < store.nodes.size)
    (hchild : child < store.nodes.size)
    (herror : Store.addChild parent child store = .error error after) :
    after = store := by
  cases hrefused : store.childError? parent child with
  | none =>
    obtain ⟨linked, hlinked, -⟩ := h.addChild_of_childError? hparent hchild hrefused
    rw [hlinked] at herror
    cases herror
  | some cause =>
    rw [Store.addChild, hrefused] at herror
    cases herror
    rfl

/-- Every operation but the registration of a node on its own changes nothing when it fails. -/
theorem eq_of_perform_error (h : Strict store) {operation : Operation} {error : OperationError}
    (hallowed : operation.registersAlone = false) (hknown : store.knows operation)
    (herror : operation.perform store = .error error after) : after = store := by
  cases operation with
  | create | setSeverity | setConfidence | bumpConfidence =>
    unfold Operation.perform at herror
    exact Operation.eq_of_ofNode_error herror
  | plant root =>
    obtain ⟨cause, hcause⟩ := Operation.exists_of_ofTree_error herror
    exact h.eq_of_plant_error (by simpa [knows] using hknown) hcause
  | addChild parent child =>
    obtain ⟨cause, hcause⟩ := Operation.exists_of_ofTree_error herror
    simp only [knows, Bool.and_eq_true, decide_eq_true_eq] at hknown
    exact h.eq_of_addChild_error hknown.1 hknown.2 hcause
  | addDependency id target =>
    obtain ⟨cause, hcause⟩ := Operation.exists_of_ofTree_error herror
    exact eq_of_addDependency_error hcause
  | register tree id => cases hallowed
  | touch | addMitigation | setReasoning | compound => cases herror

/-- What lies below a registered node is registered in the same tree. -/
theorem attached_of_below (h : Strict store) {home : Membership}
    (hid : (store.node id).membership = some home) (hpath : ReflTransGen store.Owns id target) :
    ∃ slot, (store.node target).membership = some ⟨home.tree, slot⟩ := by
  rcases reflTransGen_iff_eq_or_transGen.mp hpath with rfl | hbelow
  · exact ⟨home.slot, hid⟩
  · obtain ⟨slot, -, hslot⟩ := h.later_of_below hid hbelow
    exact ⟨slot, hslot⟩

/-- A tree that is begun at a free node has everything below that node. -/
theorem exists_planted (h : Strict store) (hroot : root < store.nodes.size)
    (halone : (store.node root).hasParent = false)
    (hdetached : (store.node root).membership = none) :
    ∃ planted, Store.plant root store = .ok store.trees.size planted ∧
      ∀ id, ReflTransGen store.Owns root id →
        ∃ slot, (planted.node id).membership = some ⟨store.trees.size, slot⟩ := by
  obtain ⟨planted, hplanted, hstrict, hregisters⟩ := h.plant_of_free hroot halone hdetached
  have htree : store.trees.size < planted.trees.size := by
    rw [hregisters.treeCount]
    simp
  have hnew : (planted.tree store.trees.size).root = root := by
    rw [hregisters.extend.root (by simp), tree_begin, if_pos rfl]
  obtain ⟨place, hplace⟩ := hstrict.root htree
  rw [hnew] at hplace
  refine ⟨planted, hplanted, fun id hpath => hstrict.attached_of_below hplace ?_⟩
  exact ReflTransGen.mono (fun owner candidate howns => hregisters.owns_iff.mpr howns) _ _ hpath

/-- A child that is not refused is linked, and joins the tree of its parent with everything below
it. -/
theorem exists_added (h : Strict store) (hparent : parent < store.nodes.size)
    (hchild : child < store.nodes.size) (hallowed : store.childError? parent child = none) :
    ∃ added, Store.addChild parent child store = .ok () added ∧
      ∀ home, (store.node parent).membership = some home → ∀ id, ReflTransGen store.Owns child id →
        ∃ slot, (added.node id).membership = some ⟨home.tree, slot⟩ := by
  obtain ⟨added, hadded, hstrict, hregisters⟩ := h.addChild_of_childError? hparent hchild hallowed
  refine ⟨added, hadded, fun home hhome id hpath => ?_⟩
  have howns : ∀ owner candidate, store.Owns owner candidate ∨ owner = parent ∧ candidate = child →
      added.Owns owner candidate := fun owner candidate hlinked =>
    hregisters.owns_iff.mpr ((owns_link store child owner candidate hparent).mpr hlinked)
  have hplace := ((Extends.link store parent child).trans hregisters.extend).membership hhome
  refine hstrict.attached_of_below hplace (.head (howns parent child (Or.inr ⟨rfl, rfl⟩)) ?_)
  exact ReflTransGen.mono (fun owner candidate hlinked => howns owner candidate (Or.inl hlinked))
    _ _ hpath

end Strict

/-- As long as no node is registered on its own, an operation that fails leaves the store exactly as
it was, whatever it is given. Planting fails only if its node has a parent or belongs to a tree, and
adding a child only if one of the checks in front refuses it; otherwise everything below the node
joins the tree. -/
theorem failures_of_ordinarilyReachable (hreachable : OrdinarilyReachable store) :
    (∀ operation error after, operation.registersAlone = false → store.knows operation →
      operation.perform store = .error error after → after = store) ∧
    (∀ root < store.nodes.size,
      (store.node root).hasParent = false → (store.node root).membership = none →
      ∃ planted, Store.plant root store = .ok store.trees.size planted ∧
        ∀ id, ReflTransGen store.Owns root id →
          ∃ slot, (planted.node id).membership = some ⟨store.trees.size, slot⟩) ∧
    (∀ parent < store.nodes.size, ∀ child < store.nodes.size, store.childError? parent child =
      none →
      ∃ added, Store.addChild parent child store = .ok () added ∧
        ∀ home, (store.node parent).membership = some home →
        ∀ id, ReflTransGen store.Owns child id →
          ∃ slot, (added.node id).membership = some ⟨home.tree, slot⟩) := by
  have hstrict := hreachable.strict
  refine ⟨?_, ?_, ?_⟩
  · exact fun operation error after => hstrict.eq_of_perform_error
  · exact fun root => hstrict.exists_planted
  · exact fun parent hparent child => hstrict.exists_added hparent

/-- Nodes 1, 2 and 3 form a chain beside the tree of node 0, and node 4 has a tree of its own. -/
def chainBesideTrees : List Operation :=
  [.create { kind := "A", description := "" }, .create { kind := "B", description := "" },
    .create { kind := "C", description := "" }, .create { kind := "D", description := "" },
    .create { kind := "E", description := "" }, .plant 0, .plant 4, .addChild 2 3, .addChild 1 2]

/-- The chain joins the tree as a whole. Giving node 4 to the tree of node 0 is refused, and so is a
severity that is none; neither leaves a trace. -/
theorem failures_of_chainBesideTrees :
    ∃ store, OrdinarilyReachable store ∧
      (∃ error, (Operation.addChild 0 4).perform store = .error error store) ∧
      (∃ error, (Operation.setSeverity 0 (.text "grave")).perform store = .error error store) ∧
      ∃ added slot, Store.addChild 0 1 store = .ok () added ∧
        (added.node 3).membership = some ⟨0, slot⟩ := by
  have hreachable : OrdinarilyReachable (empty.run chainBesideTrees) :=
    reaches_run .refl chainBesideTrees (by decide +kernel)
  have hsize : (empty.run chainBesideTrees).nodes.size = 5 := by decide +kernel
  have hroot : ((empty.run chainBesideTrees).node 0).membership = some ⟨0, 0⟩ := by decide +kernel
  have hfirst : 2 ∈ ((empty.run chainBesideTrees).node 1).children := by decide +kernel
  have hsecond : 3 ∈ ((empty.run chainBesideTrees).node 2).children := by decide +kernel
  have hallowed : (empty.run chainBesideTrees).childError? 0 1 = none := by decide +kernel
  have hrefused : (empty.run chainBesideTrees).childError? 0 4 =
      some (.isRoot "E") := by decide +kernel
  generalize empty.run chainBesideTrees = store at *
  obtain ⟨hunchanged, -, hadds⟩ := failures_of_ordinarilyReachable hreachable
  have hchild : (Operation.addChild 0 4).perform store = .error (.tree (.isRoot "E")) store := by
    rw [Operation.perform, Operation.ofTree, Store.addChild, hrefused]
  obtain ⟨error, after, hseverity⟩ :
      ∃ error after, (Operation.setSeverity 0 (.text "grave")).perform store =
        .error error after := by
    have hlabel : Severity.parse (.text "grave") = .error (.unknown "'grave'") := by decide +kernel
    exact ⟨_, _, by rw [Operation.perform, Operation.ofNode, hlabel]; rfl⟩
  have hsame := hunchanged _ _ _ rfl (by simp [knows, hsize]) hseverity
  obtain ⟨added, hadded, hjoins⟩ := hadds 0 (by omega) 1 (by omega) hallowed
  obtain ⟨slot, hslot⟩ := hjoins ⟨0, 0⟩ hroot 3 (.tail (.single hfirst) hsecond)
  exact ⟨store, hreachable, ⟨_, hchild⟩, ⟨error, hsame ▸ hseverity⟩, added, slot, hadded, hslot⟩

end Store

end RiskScan

import RiskScan.Proofs.Store.PartialRegistration
/-!
# Parents that nodes know

However a store came about, a node has at most one owner, and a slot that it knows as its parent's
is the slot of this owner. So a node whose owner is detached knows no parent, and a registration
that enrols the owner tells it for the first time, or not at all.
-/

namespace RiskScan.Store

variable {store after : Store} {tree : TreeId} {id parent child : NodeId}

structure Parented (store : Store) : Prop where
  linked : Linked store
  owner_of_parentSlot {child : NodeId} {slot : Nat} : (store.node child).parentSlot = some slot →
    ∃ owner home, store.Owns owner child ∧ (store.node owner).membership = some home ∧
    home.slot = slot

namespace Parented

theorem of_eq (h : Parented store)
    (hchildren : ∀ id, (after.node id).children = (store.node id).children)
    (hhasParent : ∀ id, (after.node id).hasParent = (store.node id).hasParent)
    (hmembership : ∀ id, (after.node id).membership = (store.node id).membership)
    (hparentSlot : ∀ id, (after.node id).parentSlot = (store.node id).parentSlot) :
    Parented after where
  linked := h.linked.of_eq hchildren hhasParent
  owner_of_parentSlot hknown := by
    rw [hparentSlot] at hknown
    obtain ⟨owner, home, howns, howner, hslot⟩ := h.owner_of_parentSlot hknown
    refine ⟨owner, home, ?_, ?_, hslot⟩
    · rwa [Owns, hchildren]
    · rwa [hmembership]

theorem empty : Parented Store.empty where
  linked := ⟨fun hfirst => absurd hfirst List.not_mem_nil, fun _ => List.nodup_nil, fun id => by
    constructor
    · intro hmarked
      cases hmarked
    · rintro ⟨owner, howns⟩
      exact absurd howns List.not_mem_nil⟩
  owner_of_parentSlot hknown := by cases hknown

theorem create (h : Parented store) {node : Node} (hfresh : node.Fresh) :
    Parented (store.create node).2 :=
  h.of_eq (create_keeps Node.children hfresh.children)
    (create_keeps Node.hasParent hfresh.hasParent)
    (create_keeps Node.membership hfresh.membership)
      (create_keeps Node.parentSlot hfresh.parentSlot)

theorem link (h : Parented store) (hparent : parent < store.nodes.size)
    (hchild : child < store.nodes.size) (halone : (store.node child).hasParent = false) :
    Parented (store.link parent child) where
  linked := h.linked.link hparent hchild halone
  owner_of_parentSlot {other slot} hknown := by
    rw [link_keeps Node.parentSlot (fun _ _ => rfl) (fun _ _ => rfl)] at hknown
    obtain ⟨owner, home, howns, howner, hslot⟩ := h.owner_of_parentSlot hknown
    refine ⟨owner, home, (owns_link store child owner other hparent).mpr (Or.inl howns), ?_, hslot⟩
    rw [membership_link, howner]

theorem setParentSlot (h : Parented store) {home : Membership} (howns : store.Owns parent child)
    (hparent : (store.node parent).membership = some home) (hchild : child < store.nodes.size) :
    Parented (store.setParentSlot child home.slot) where
  linked := h.linked.of_eq (children_setParentSlot store child · home.slot)
    (hasParent_setParentSlot store child · home.slot)
  owner_of_parentSlot {other slot} hknown := by
    simp only [owns_setParentSlot, membership_setParentSlot]
    rw [parentSlot_setParentSlot store other home.slot hchild] at hknown
    split at hknown
    · rename_i hsame
      rw [hsame]
      exact ⟨parent, home, howns, hparent, Option.some.inj hknown⟩
    · exact h.owner_of_parentSlot hknown

/-- Whoever is told during a registration is told by its owner. -/
theorem carries (h : Parented store) {start last : Walk}
    {result : EStateM.Result TreeError Store Unit}
    (hcarries : Carries store tree start (Walk.Tells store tree start) store result last after) :
    Parented after where
  linked := h.linked.of_eq hcarries.joins.children hcarries.joins.hasParent
  owner_of_parentSlot {other slot} hknown := by
    have howns : ∀ owner, after.Owns owner other ↔ store.Owns owner other := by
      intro owner
      rw [Owns, hcarries.joins.children, Owns]
    rcases hcarries.told
      other with ⟨owner, home, ⟨_, _, _, _, hchild, _⟩, howner, htold⟩ | ⟨-, hsame⟩
    · rw [htold] at hknown
      exact ⟨owner, home, (howns owner).mpr hchild, howner, Option.some.inj hknown⟩
    · rw [hsame] at hknown
      obtain ⟨owner, home, hchild, howner, hslot⟩ := h.owner_of_parentSlot hknown
      exact ⟨owner, home, (howns owner).mpr hchild,
        (Joins.refl store tree).membership_later hcarries.joins List.nil_prefix howner, hslot⟩

theorem register (h : Parented store) (hsound : ArenaSound store) (htree : tree < store.trees.size)
    (hid : id < store.nodes.size) : Parented ((Store.register tree id).after store) := by
  obtain ⟨last, after, -, hcarries⟩ := exists_carries_register hsound htree hid
  rw [hcarries.ends.after_eq]
  exact h.carries hcarries

theorem plant (h : Parented store) (hsound : ArenaSound store) {root : NodeId}
    (hroot : root < store.nodes.size) : Parented ((Store.plant root).after store) := by
  rw [after_plant]
  split
  · exact h
  · have hbegun : Parented (store.begin root) :=
      h.of_eq (fun _ => rfl) (fun _ => rfl) (fun _ => rfl) (fun _ => rfl)
    exact hbegun.register (hsound.begin root) (by simp) (by simpa using hroot)

theorem addChild (h : Parented store) (hsound : ArenaSound store)
    (hparent : parent < store.nodes.size) (hchild : child < store.nodes.size) :
    Parented ((Store.addChild parent child).after store) := by
  rw [after_addChild]
  split
  · exact h
  · rename_i hfree
    have hlink := h.link hparent hchild (free_of_childError? hfree).2.1
    split
    · exact hlink
    · rename_i home hhome
      have hplace : ((store.link parent child).node parent).membership = some home := by
        rw [membership_link, hhome]
      have hlinked : child < (store.link parent child).nodes.size := by rwa [size_link]
      obtain ⟨⟨visited, pending⟩, after, -, hcarries⟩ :=
        exists_carries_register (hsound.link hparent hchild) (hsound.tree_lt hhome) hlinked
      have hafter := hlink.carries hcarries
      have hends := hcarries.ends
      generalize Store.register home.tree child (store.link parent child) = result at hends
      cases hends with
      | stopped _ _ => exact hafter
      | finished =>
        have howns : after.Owns parent child := by
          rw [Owns, hcarries.joins.children]
          exact (owns_link store child parent child hparent).mpr (Or.inr ⟨rfl, rfl⟩)
        refine hafter.setParentSlot howns ?_ ?_
        · exact (Joins.refl _ _).membership_later hcarries.joins List.nil_prefix hplace
        · rwa [hcarries.joins.size]

/-- Every operation keeps this, whether or not it fails. -/
theorem step (h : Parented store) (hsound : ArenaSound store) {operation : Operation}
    (hknown : store.knows operation) : Parented (operation.after store) := by
  cases hshape : operation.changesShape with
  | false =>
    obtain ⟨hsame, -⟩ := Operation.sameShape_after hshape store
    exact h.of_eq hsame.children hsame.hasParent hsame.membership hsame.parentSlot
  | true =>
    cases operation with
    | create draft =>
      rcases Operation.after_create draft store with hfail | ⟨node, hnode, hafter⟩
      · rwa [hfail]
      · rw [hafter]
        exact h.create (draft.fresh_of_node hnode)
    | plant root =>
      rw [Operation.after_plant]
      exact h.plant hsound (by simpa [knows] using hknown)
    | register tree id =>
      rw [Operation.after_register]
      simp only [knows, Bool.and_eq_true, decide_eq_true_eq] at hknown
      exact h.register hsound hknown.1 hknown.2
    | addChild parent child =>
      rw [Operation.after_addChild]
      simp only [knows, Bool.and_eq_true, decide_eq_true_eq] at hknown
      exact h.addChild hsound hknown.1 hknown.2
    | _ => cases hshape

end Parented

theorem Reaches.parented {allowed : Operation → Bool} (hreaches : Reaches allowed empty store) :
    Parented store := by
  induction hreaches with
  | refl => exact .empty
  | step hbefore _ hknown ih => exact ih.step hbefore.arenaSound hknown

/-- Whose owner joins is told by it, or is not told at all and has known no parent before. -/
theorem Parented.parentSlot_iff_tells (h : Parented store) {start last : Walk} {slot : Nat}
    {result : EStateM.Result TreeError Store Unit}
    (hcarries : Carries store tree start (Walk.Tells store tree start) store result last after)
    (hdetached : (store.node parent).membership = none)
    (hparent : (after.node parent).membership = some ⟨tree, slot⟩)
    (howns : store.Owns parent child) :
    (after.node child).parentSlot = some slot ↔ Walk.Tells store tree start parent child := by
  have hsame : ∀ {owner : NodeId}, Walk.Tells store tree start owner child → owner = parent := by
    rintro owner ⟨_, _, _, _, hchild, _⟩
    exact h.linked.unique hchild howns
  rcases hcarries.told child with ⟨owner, home, htells, howner, hknown⟩ | ⟨hnone, hold⟩
  · obtain rfl := hsame htells
    rw [hparent] at howner
    cases howner
    exact ⟨fun _ => htells, fun _ => hknown⟩
  · constructor
    · intro hslot
      rw [hold] at hslot
      obtain ⟨owner, home, hchild, howner, -⟩ := h.owner_of_parentSlot hslot
      rw [h.linked.unique hchild howns, hdetached] at howner
      cases howner
    · exact fun htells => absurd htells (hnone parent)

/-- Registering a node in a tree of a reachable store ends, and does what the walk from the node
says. The detached nodes that the walk meets join the tree, in its order, in the slots after those
in use. The registration fails exactly if the walk meets a node of another tree, and says which node
this is. A child that the walk meets after its parent is told the slot of the parent exactly if the
walk goes through everything below the child. Nothing else has changed. -/
theorem register_of_reachable (hreachable : Reachable store) (htree : tree < store.trees.size)
    (hid : id < store.nodes.size) :
    ∃ last after,
      (Walk.Leads store tree ⟨[], [id]⟩ last ∧ Walk.Ended store tree last) ∧
      (∀ fuel > store.nodes.size, registerWithin tree fuel id store = register tree id store) ∧
      ((last.pending = [] ∧ register tree id store = .ok () after) ∨
        ∃ foreign pending owner, last.pending = foreign :: pending ∧
          (store.node foreign).tree? = some owner ∧ owner ≠ tree ∧
          register tree id store = .error (.otherTree (store.node foreign).kind) after) ∧
      ((∃ error, register tree id store = .error error after) ↔
        ∃ visited foreign pending owner,
          Walk.Leads store tree ⟨[], [id]⟩ ⟨visited, foreign :: pending⟩ ∧
          (store.node foreign).tree? = some owner ∧ owner ≠ tree) ∧
      Joins store tree last.visited after ∧
      (∀ parent child visited pending,
        Walk.Leads store tree ⟨[], [id]⟩ ⟨visited, child :: pending⟩ → parent ∈ visited →
        child ∈ (store.node parent).children →
        ∃ slot, (after.node parent).membership = some ⟨tree, slot⟩ ∧
          ((after.node child).parentSlot = some slot ↔ Walk.Completes store tree visited child)) ∧
      ∀ child, (∀ parent, ¬ Walk.Tells store tree ⟨[], [id]⟩ parent child) →
        (after.node child).parentSlot = (store.node child).parentSlot := by
  have hparented := hreachable.parented
  obtain ⟨⟨joined, pending⟩, after, hdeeper, hcarries⟩ :=
    exists_carries_register hreachable.arenaSound htree hid
  obtain ⟨hleads, hends, hjoins, htold⟩ := hcarries
  have hended := hends.ended
  refine ⟨⟨joined, pending⟩, after, ⟨hleads, hended⟩, hdeeper, ?_, ?_, hjoins, ?_, ?_⟩
  · generalize register tree id store = result at hends
    cases hends with
    | finished => exact Or.inl ⟨rfl, rfl⟩
    | stopped howned hother => exact Or.inr ⟨_, _, _, rfl, howned, hother, rfl⟩
  · constructor
    · rintro ⟨error, herror⟩
      rw [herror] at hends
      cases hends with
      | stopped howned hother => exact ⟨_, _, _, _, hleads, howned, hother⟩
    · rintro ⟨visited, foreign, behind, owner, hmet, howned, hother⟩
      cases Walk.ended_unique hleads hended hmet (Walk.ended_foreign howned hother)
      generalize register tree id store = result at hends
      cases hends with
      | stopped _ _ => exact ⟨_, rfl⟩
  · intro parent child visited behind hmet hparent howns
    have hinitial := Walk.visited_isPrefix (Walk.leads_ended hleads hended hmet)
    obtain ⟨slot, hslot⟩ := hjoins.exists_slot (hinitial.subset hparent)
    refine ⟨slot, hslot, ?_⟩
    rw [← Walk.tells_iff_completes hparented.linked hmet hparent howns]
    exact hparented.parentSlot_iff_tells ⟨hleads, hends, hjoins, htold⟩
      (hjoins.detached (hinitial.subset hparent)).2 hslot howns
  · intro child hnone
    rcases htold child with ⟨parent, home, htells, -⟩ | ⟨-, hsame⟩
    · exact absurd htells (hnone parent)
    · exact hsame

/-- Nodes 2, 3 and 5 own each other in a ring, and node 4 is owned by node 2. Below node 4 there is
node 6, which has been registered on its own. -/
def ringBesideForeign : List Operation :=
  [.create { kind := "A", description := "" }, .create { kind := "B", description := "" },
    .create { kind := "C", description := "" }, .create { kind := "D", description := "" },
    .create { kind := "E", description := "" }, .create { kind := "F", description := "" },
    .create { kind := "G", description := "" }, .plant 0, .plant 1, .addChild 2 3, .addChild 2 4,
    .addChild 3 5, .addChild 5 2, .addChild 4 6, .register 1 6]

/-- The ring joins, and node 4 after it. Then the walk meets node 6, and node 4 is not told its
parent. -/
theorem register_of_ringBesideForeign :
    ∃ store after, Reachable store ∧ 0 < store.trees.size ∧ 2 < store.nodes.size ∧
      register 0 2 store = .error (.otherTree "G") after ∧
      (after.tree 0).nodes = (store.tree 0).nodes ++ [2, 3, 5, 4] ∧
      (∃ slot, (after.node 2).membership = some ⟨0, slot⟩ ∧ (after.node 3).parentSlot = some slot ∧
        (after.node 4).parentSlot ≠ some slot) ∧
      ∃ slot, (after.node 5).membership = some ⟨0, slot⟩ ∧
      (after.node 2).parentSlot = some slot := by
  have hreachable : Reachable (empty.run ringBesideForeign) :=
    reaches_run .refl ringBesideForeign (by decide +kernel)
  have htrees : 0 < (empty.run ringBesideForeign).trees.size := by decide +kernel
  have hnodes : 2 < (empty.run ringBesideForeign).nodes.size := by decide +kernel
  have hdetached : ∀ id ∈ [2, 3, 4, 5], ((empty.run ringBesideForeign).node id).membership =
      none := by
    decide +kernel
  have hforeign : ((empty.run ringBesideForeign).node 6).tree? = some 1 := by decide +kernel
  have hkind : ((empty.run ringBesideForeign).node 6).kind = "G" := by decide +kernel
  have htwo : ((empty.run ringBesideForeign).node 2).children = [3, 4] := by decide +kernel
  have hthree : ((empty.run ringBesideForeign).node 3).children = [5] := by decide +kernel
  have hfour : ((empty.run ringBesideForeign).node 4).children = [6] := by decide +kernel
  have hfive : ((empty.run ringBesideForeign).node 5).children = [2] := by decide +kernel
  generalize empty.run ringBesideForeign = store at *
  have hvisit : ∀ (id : NodeId) (visited pending : List NodeId), id ∈ [2, 3, 4, 5] → id ∉ visited →
      Walk.Step store 0 ⟨visited, id :: pending⟩
        ⟨visited ++ [id], (store.node id).children ++ pending⟩ :=
    fun _ _ _ hmem hfresh => .visit (hdetached _ hmem) hfresh
  have hfirst : Walk.Leads store 0 ⟨[], [2]⟩ ⟨[2], [3, 4]⟩ := by
    have hstep := hvisit 2 [] [] (by simp) (by simp)
    rw [htwo] at hstep
    exact .single hstep
  have hring : ∀ pending, Walk.Leads store 0 ⟨[2], 3 :: pending⟩ ⟨[2, 3, 5], 2 :: pending⟩ := by
    intro pending
    have hstep := hvisit 3 [2] pending (by simp) (by simp)
    have hnext := hvisit 5 [2, 3] pending (by simp) (by simp)
    rw [hthree] at hstep
    rw [hfive] at hnext
    exact .head hstep (.single hnext)
  have hagain : ∀ pending, Walk.Leads store 0 ⟨[2, 3, 5], 2 :: pending⟩ ⟨[2, 3, 5], pending⟩ :=
    fun pending => .single (.again (hdetached 2 (by simp)) (by simp))
  have hstopped : Walk.Leads store 0 ⟨[2, 3, 5], [4]⟩ ⟨[2, 3, 5, 4], [6]⟩ := by
    have hstep := hvisit 4 [2, 3, 5] [] (by simp) (by simp)
    rw [hfour] at hstep
    exact .single hstep
  have hended : Walk.Ended store 0 ⟨[2, 3, 5, 4], [6]⟩ := Walk.ended_foreign hforeign (by decide)
  have hback := hfirst.trans (hring [4])
  have hbehind := hback.trans (hagain [4])
  obtain ⟨last, after, ⟨hlast, hlastEnded⟩, -, hresult, -, hjoins, htold, -⟩ :=
    register_of_reachable hreachable htrees hnodes
  cases Walk.ended_unique hlast hlastEnded (hbehind.trans hstopped) hended
  obtain ⟨slot, htwoSlot, hthreeKnows⟩ := htold 2 3 [2] [4] hfirst (by simp) (by simp [htwo])
  obtain ⟨same, htwoSame, hfourKnows⟩ := htold 2 4 [2, 3, 5] [] hbehind (by simp) (by simp [htwo])
  obtain ⟨last, hfiveSlot, htwoKnows⟩ := htold 5 2 [2, 3, 5] [4] hback (by simp) (by simp [hfive])
  rw [htwoSlot] at htwoSame
  cases htwoSame
  have hthreeEnds : Walk.Completes store 0 [2] 3 := ⟨_, (hring []).trans (hagain [])⟩
  have hfourStops : ¬ Walk.Completes store 0 [2, 3, 5] 4 := Walk.not_completes hstopped hended
  refine ⟨store, after, hreachable, htrees, hnodes, ?_, ?_, ?_, ?_⟩
  · rcases hresult with ⟨hnone, -⟩ | ⟨foreign, pending, owner, hsame, -, -, herror⟩
    · cases hnone
    · cases hsame
      rw [herror, hkind]
  · rw [hjoins.tree_eq]
  · exact ⟨slot, htwoSlot, hthreeKnows.mpr hthreeEnds, fun hknown =>
      hfourStops (hfourKnows.mp hknown)⟩
  · exact ⟨last, hfiveSlot, htwoKnows.mpr ⟨_, hagain []⟩⟩

end RiskScan.Store

import RiskScan.Proofs.Store.Registration
import RiskScan.Proofs.Store.Walk
/-!
# Registration, also where it stops

Registering a node asks every node that it meets whether it is registered, and what it has done
before changes the answers. Still it goes the way of the walk that looks at the store before it
only: a node is detached then and has been met exactly if it has joined meanwhile. So nodes join in
the order of the walk, and the registration fails where the walk meets another tree. Parents are
told on the way back, and there is no way back from a failure.
-/

namespace RiskScan.Store

variable {store now middle after : Store} {tree : TreeId} {id parent child foreign : NodeId}
  {place slot fuel : Nat} {joined later visited met pending : List NodeId}

theorem getElem?_of_isPrefix (hinitial : joined <+: later) (hplace : joined[place]? = some id) :
    later[place]? = some id := by
  obtain ⟨rest, rfl⟩ := hinitial
  rw [List.getElem?_append_left (List.getElem?_eq_some_iff.mp hplace).1, hplace]

/-- A store after some detached nodes have joined a tree, in this order. Of nodes, only the places
and the slots of parents may have changed, and of trees, only the nodes that have joined are new. -/
structure Joins (store : Store) (tree : TreeId) (joined : List NodeId) (now : Store) : Prop where
  size : now.nodes.size = store.nodes.size
  treeCount : now.trees.size = store.trees.size
  tree_eq : now.tree tree = { store.tree tree with nodes := (store.tree tree).nodes ++ joined }
  otherTree {other : TreeId} : other ≠ tree → now.tree other = store.tree other
  nodup : joined.Nodup
  detached {id : NodeId} : id ∈ joined → id < store.nodes.size ∧ (store.node id).membership = none
  membership {place : Nat} {id : NodeId} : joined[place]? = some id →
    (now.node id).membership = some ⟨tree, (store.tree tree).nodes.size + place⟩
  membership_other {id : NodeId} : id ∉ joined →
    (now.node id).membership = (store.node id).membership
  node (id : NodeId) : now.node id =
    { store.node id with
      membership := (now.node id).membership, parentSlot := (now.node id).parentSlot }

namespace Joins

theorem refl (store : Store) (tree : TreeId) : Joins store tree [] store where
  size := rfl
  treeCount := rfl
  tree_eq := by rw [Array.appendList_nil]
  otherTree _ := rfl
  nodup := List.nodup_nil
  detached h := absurd h List.not_mem_nil
  membership h := by cases h
  membership_other _ := rfl
  node _ := rfl

theorem children (h : Joins store tree joined now) (id : NodeId) :
    (now.node id).children = (store.node id).children := by
  rw [h.node]

theorem hasParent (h : Joins store tree joined now) (id : NodeId) :
    (now.node id).hasParent = (store.node id).hasParent := by
  rw [h.node]

theorem exists_slot (h : Joins store tree joined now) (hid : id ∈ joined) :
    ∃ slot, (now.node id).membership = some ⟨tree, slot⟩ := by
  obtain ⟨place, hplace⟩ := List.mem_iff_getElem?.mp hid
  exact ⟨_, h.membership hplace⟩

theorem treeSize (h : Joins store tree joined now) :
    (now.tree tree).nodes.size = (store.tree tree).nodes.size + joined.length := by
  rw [h.tree_eq, ← Array.length_toList, Array.toList_appendList, List.length_append,
    Array.length_toList]

/-- There is room for detached nodes only. -/
theorem length_le (h : Joins store tree joined now) : joined.length ≤ store.detachedNodes.card := by
  have hsubset : joined.toFinset ⊆ store.detachedNodes := by
    intro other hother
    have hdetached := h.detached (List.mem_toFinset.mp hother)
    rwa [detachedNodes, Finset.mem_filter, Finset.mem_range]
  calc joined.length = joined.toFinset.card := (List.toFinset_card_of_nodup h.nodup).symm
    _ ≤ store.detachedNodes.card := Finset.card_le_card hsubset

/-- Whatever joins later, a place stays with its node. -/
theorem membership_later {home : Membership} (hnow : Joins store tree joined now)
    (hafter : Joins store tree later after) (hinitial : joined <+: later)
    (hid : (now.node id).membership = some home) : (after.node id).membership = some home := by
  by_cases hmem : id ∈ joined
  · obtain ⟨place, hplace⟩ := List.mem_iff_getElem?.mp hmem
    rw [hafter.membership (getElem?_of_isPrefix hinitial hplace), ← hnow.membership hplace, hid]
  · have hold := hnow.membership_other hmem
    rw [hid] at hold
    have hfresh : id ∉ later := by
      intro hlater
      rw [(hafter.detached hlater).2] at hold
      cases hold
    rw [hafter.membership_other hfresh, ← hold]

theorem enrol (h : Joins store tree joined now) (htree : tree < store.trees.size)
    (hid : id < store.nodes.size) (hdetached : (store.node id).membership = none)
    (hfresh : id ∉ joined) :
    Joins store tree (joined ++ [id]) (now.enrol tree id) := by
  have hnow : id < now.nodes.size := by rwa [h.size]
  refine ⟨?_, ?_, ?_, ?_, ?_, ?_, ?_, ?_, ?_⟩
  · rw [size_enrol, h.size]
  · rw [treeCount_enrol, h.treeCount]
  · have hpush : ((store.tree tree).nodes ++ joined).push id =
        (store.tree tree).nodes ++ (joined ++ [id]) := by
      apply Array.toList_inj.mp
      rw [Array.toList_push, Array.toList_appendList, Array.toList_appendList, List.append_assoc]
    rw [tree_enrol, if_pos ⟨rfl, by rwa [h.treeCount]⟩, h.tree_eq, ← hpush]
  · intro other hother
    rw [tree_enrol, if_neg fun hsame => hother hsame.1.symm, h.otherTree hother]
  · exact List.nodup_append.mpr ⟨h.nodup, List.nodup_singleton id, by
      rintro other hother _ hnew rfl
      rw [List.mem_singleton.mp hnew] at hother
      exact hfresh hother⟩
  · intro other hother
    rcases List.mem_append.mp hother with hold | hnew
    · exact h.detached hold
    · rw [List.mem_singleton.mp hnew]
      exact ⟨hid, hdetached⟩
  · intro place other hplace
    rw [membership_enrol now tree other hnow]
    rcases Nat.lt_or_ge place joined.length with hlt | hge
    · rw [List.getElem?_append_left hlt] at hplace
      rw [if_neg]
      · exact h.membership hplace
      · rintro rfl
        exact hfresh (List.mem_of_getElem? hplace)
    · rw [List.getElem?_append_right hge, List.getElem?_singleton] at hplace
      split at hplace
      · rename_i hzero
        rw [if_pos (Option.some.inj hplace).symm, h.treeSize]
        have hsame : place = joined.length := by omega
        rw [hsame]
      · cases hplace
  · intro other hother
    rw [membership_enrol now tree other hnow, if_neg]
    · exact h.membership_other fun hold => hother (List.mem_append_left [id] hold)
    · rintro rfl
      exact hother (List.mem_append_right joined (List.mem_singleton_self other))
  · intro other
    rw [node_enrol]
    split
    · rename_i hsame
      rw [hsame.1, h.node]
    · exact h.node other

theorem setParentSlot (h : Joins store tree joined now) (child : NodeId) (slot : Nat) :
    Joins store tree joined (now.setParentSlot child slot) := by
  have hmembership : ∀ other, ((now.setParentSlot child slot).node other).membership =
      (now.node other).membership :=
    fun other => membership_setParentSlot now child other slot
  refine ⟨?_, h.treeCount, h.tree_eq, h.otherTree, h.nodup, h.detached, ?_, ?_, ?_⟩
  · rw [size_setParentSlot, h.size]
  · intro place other hplace
    rw [hmembership, h.membership hplace]
  · intro other hother
    rw [hmembership, h.membership_other hother]
  · intro other
    rw [Store.setParentSlot, node_modifyNode]
    split
    · rename_i hsame
      rw [hsame.1, h.node]
    · exact h.node other

end Joins

/-- How a registration ends when this is still pending: well if that is nothing, and with an error
at a node of another tree. -/
inductive Ends (store : Store) (tree : TreeId) :
    List NodeId → EStateM.Result TreeError Store Unit → Store → Prop where
  | finished {after : Store} : Ends store tree [] (.ok () after) after
  | stopped {id : NodeId} {pending : List NodeId} {owner : TreeId} {after : Store}
      (isOwned : (store.node id).tree? = some owner) (isOther : owner ≠ tree) :
      Ends store tree (id :: pending) (.error (.otherTree (store.node id).kind) after) after

/-- The nodes that are told their parents know the slots of these; the others know what they
knew. -/
def ToldBy (tells : NodeId → NodeId → Prop) (now after : Store) : Prop :=
  ∀ child,
    (∃ parent home, tells parent child ∧ (after.node parent).membership = some home ∧
      (after.node child).parentSlot = some home.slot) ∨
    ((∀ parent, ¬ tells parent child) ∧ (after.node child).parentSlot = (now.node child).parentSlot)

/-- A registration goes the way of a walk to its end. -/
structure Carries (store : Store) (tree : TreeId) (start : Walk) (tells : NodeId → NodeId → Prop)
    (now : Store) (result : EStateM.Result TreeError Store Unit) (last : Walk) (after : Store) :
    Prop where
  leads : Walk.Leads store tree start last
  ends : Ends store tree last.pending result after
  joins : Joins store tree last.visited after
  told : ToldBy tells now after

theorem Ends.after_eq {operation : StoreM Unit}
    (h : Ends store tree pending (operation now) after) :
    operation.after now = after := by
  unfold StoreM.after
  generalize operation now = result at h
  cases h with
  | finished => rfl
  | stopped _ _ => rfl

theorem Ends.ended {result : EStateM.Result TreeError Store Unit} {walk : Walk}
    (h : Ends store tree walk.pending result after) : Walk.Ended store tree walk := by
  obtain ⟨visited, pending⟩ := walk
  cases h with
  | finished => exact Walk.ended_nil
  | stopped howned hother => exact Walk.ended_foreign howned hother

namespace ToldBy

theorem refl {tells : NodeId → NodeId → Prop} (hnone : ∀ parent child, ¬ tells parent child)
    (now : Store) : ToldBy tells now now :=
  fun child => Or.inr ⟨fun parent => hnone parent child, rfl⟩

variable {children : List NodeId}

/-- Where the walk stops below the first of several children, none of them is told. -/
theorem stopped (hleads : Walk.Leads store tree ⟨visited, [child]⟩ ⟨met, foreign :: pending⟩)
    (hended : Walk.Ended store tree ⟨met, foreign :: pending⟩)
    (htold : ToldBy (Walk.TellsBelow store tree ⟨visited, [child]⟩) now middle) :
    ToldBy (Walk.Tells store tree ⟨visited, child :: children⟩) now middle := by
  have hnot := Walk.not_completes hleads hended
  intro other
  rcases htold other with ⟨owner, home, htells, hknown⟩ | ⟨hnone, hsame⟩
  · exact Or.inl ⟨owner, home, Walk.tells_of_tellsBelow htells children, hknown⟩
  · refine Or.inr ⟨fun owner htells => ?_, hsame⟩
    rcases Walk.tells_cons htells with ⟨-, -, hcompletes⟩ | hbelow | ⟨later, hlater, -⟩
    · exact hnot hcompletes
    · exact hnone owner hbelow
    · exact hnot ⟨later, hlater⟩

/-- Otherwise the first child is told before the walk goes on to the others. -/
theorem adopted (hleads : Walk.Leads store tree ⟨visited, [child]⟩ ⟨met, []⟩)
    (htold : ToldBy (Walk.TellsBelow store tree ⟨visited, [child]⟩) now middle)
    (hrest : ToldBy (Walk.Tells store tree ⟨met, children⟩) (middle.setParentSlot child slot) after)
    (hkept : ∀ {id : NodeId} {home : Membership}, (middle.node id).membership = some home →
      (after.node id).membership = some home)
    (hparent : (after.node parent).membership = some ⟨tree, slot⟩) (hvisited : parent ∈ visited)
    (howns : store.Owns parent child) (hlt : child < middle.nodes.size) :
    ToldBy (Walk.Tells store tree ⟨visited, child :: children⟩) now after := by
  intro other
  have hslot := parentSlot_setParentSlot middle other slot hlt
  rcases hrest other with ⟨owner, home, htells, hknown⟩ | ⟨hnoneRest, hsameRest⟩
  · exact Or.inl
      ⟨owner, home, Walk.tells_of_leads (Walk.leads_append hleads children) htells, hknown⟩
  · rw [hslot] at hsameRest
    by_cases heq : other = child
    · rw [if_pos heq] at hsameRest
      subst heq
      exact Or.inl ⟨parent, _, ⟨visited, children, .refl, hvisited, howns, met, hleads⟩,
        hparent, hsameRest⟩
    · rw [if_neg heq] at hsameRest
      rcases htold other with ⟨owner, home, htells, howner, hknown⟩ | ⟨hnone, hsame⟩
      · refine Or.inl ⟨owner, home, Walk.tells_of_tellsBelow htells children, hkept howner, ?_⟩
        exact hsameRest.trans hknown
      · refine Or.inr ⟨fun owner htells => ?_, hsameRest.trans hsame⟩
        rcases Walk.tells_cons htells with ⟨hfirst, -⟩ | hbelow | ⟨later, hlater, hbehind⟩
        · exact heq hfirst
        · exact hnone owner hbelow
        · cases Walk.ended_unique hleads Walk.ended_nil hlater Walk.ended_nil
          exact hnoneRest owner hbehind

end ToldBy

/-- Adopting children goes the way of the walk over them, if registering each of them does. -/
theorem exists_carries_adopt (hsound : ArenaSound store)
    (hregister : ∀ {visited : List NodeId} {now : Store} {child : NodeId},
      Joins store tree visited now → child < store.nodes.size →
      store.detachedNodes.card < fuel + visited.length →
      ∃ result last after, (∀ deeper ≥ fuel, registerWithin tree deeper child now = result) ∧
        Carries store tree ⟨visited, [child]⟩ (Walk.TellsBelow store tree ⟨visited, [child]⟩) now
          result last after)
    (hjoins : Joins store tree visited now)
    (hbound : store.detachedNodes.card < fuel + visited.length)
    (hplace : visited[place]? = some parent) {children : List NodeId}
    (howns : ∀ child ∈ children, store.Owns parent child) :
    ∃ result last after,
      (∀ deeper ≥ fuel, adopt (registerWithin tree deeper) ((store.tree tree).nodes.size + place)
        children now = result) ∧
      Carries store tree ⟨visited, children⟩ (Walk.Tells store tree ⟨visited, children⟩) now
        result last after := by
  induction children generalizing visited now with
  | nil =>
    refine ⟨.ok () now, ⟨visited, []⟩, now, fun _ _ => rfl, .refl, .finished, hjoins, ?_⟩
    exact .refl (fun _ _ => Walk.not_tells_nil) now
  | cons child children ih =>
    have hchild := howns child List.mem_cons_self
    have hlt := hsound.child_lt hchild
    obtain ⟨result, ⟨met, pending⟩, middle, hresult, hleads, hends, hmiddle, htold⟩ :=
      hregister hjoins hlt hbound
    have hended := hends.ended
    have hinitial := Walk.visited_isPrefix hleads
    have hinside := Walk.leads_append hleads children
    dsimp only at hends hmiddle hinitial hinside
    cases hends with
    | stopped howned hother =>
      refine ⟨_, _, middle, ?_, hinside, .stopped howned hother, hmiddle,
        htold.stopped hleads hended⟩
      intro deeper hdeeper
      rw [adopt, hresult deeper hdeeper]
    | finished =>
      have hmet := getElem?_of_isPrefix hinitial hplace
      have hroom : store.detachedNodes.card < fuel + met.length := by
        have hlength := hinitial.length_le
        omega
      obtain ⟨result, last, after, hrest, hbehind, hends, hafter, htoldRest⟩ :=
        ih (hmiddle.setParentSlot child _) hroom hmet
          fun other hmem => howns other (List.mem_cons_of_mem child hmem)
      have hlater := Walk.visited_isPrefix hbehind
      refine ⟨result, last, after, ?_, hinside.trans hbehind, hends, hafter, ?_⟩
      · intro deeper hdeeper
        rw [adopt, hresult deeper hdeeper]
        exact hrest deeper hdeeper
      · refine htold.adopted hleads htoldRest (hmiddle.membership_later hafter hlater)
          (hafter.membership (getElem?_of_isPrefix hlater hmet))
            (List.mem_of_getElem? hplace) hchild ?_
        rwa [hmiddle.size]

theorem registerWithin_of_tree? {owner : TreeId} (howner : (now.node id).tree? = some owner)
    (fuel : Nat) :
    registerWithin tree (fuel + 1) id now =
      if owner = tree then .ok () now else .error (.otherTree (now.node id).kind) now := by
  rw [registerWithin, howner]

theorem registerWithin_of_detached (hdetached : (now.node id).membership = none) (fuel : Nat) :
    registerWithin tree (fuel + 1) id now =
      adopt (registerWithin tree fuel) (now.tree tree).nodes.size (now.node id).children
        (now.enrol tree id) := by
  rw [registerWithin, tree?_of_detached hdetached]

namespace Carries

/-- Where the walk turns back, the registration returns. -/
theorem back (hstep : Walk.Step store tree ⟨visited, [id]⟩ ⟨visited, []⟩)
    (hjoins : Joins store tree visited now) :
    Carries store tree ⟨visited, [id]⟩ (Walk.TellsBelow store tree ⟨visited, [id]⟩) now
      (.ok () now) ⟨visited, []⟩ now where
  leads := .single hstep
  ends := .finished
  joins := hjoins
  told := .refl (fun _ _ => Walk.not_tellsBelow_of_step hstep) now

/-- Where the walk ends at once, the registration fails at once. -/
theorem stop {owner : TreeId} (howned : (store.node id).tree? = some owner) (hother : owner ≠ tree)
    (hjoins : Joins store tree visited now) :
    Carries store tree ⟨visited, [id]⟩ (Walk.TellsBelow store tree ⟨visited, [id]⟩) now
      (.error (.otherTree (store.node id).kind) now) ⟨visited, [id]⟩ now where
  leads := .refl
  ends := .stopped howned hother
  joins := hjoins
  told := .refl (fun _ _ ⟨next, hnext, _⟩ => Walk.ended_foreign howned hother next hnext) now

/-- Where the walk goes on to the children, the registration does after the node has been
enrolled. -/
theorem visit {result : EStateM.Result TreeError Store Unit} {last : Walk}
    (hdetached : (store.node id).membership = none) (hfresh : id ∉ visited)
    (h : Carries store tree ⟨visited ++ [id], (store.node id).children⟩
      (Walk.Tells store tree ⟨visited ++ [id], (store.node id).children⟩) (now.enrol tree id)
      result last after) :
    Carries store tree ⟨visited, [id]⟩ (Walk.TellsBelow store tree ⟨visited, [id]⟩) now
      result last after where
  leads := h.leads.head (Walk.step_single hdetached hfresh)
  ends := h.ends
  joins := h.joins
  told := by
    intro other
    have hslot := parentSlot_enrol now tree id other
    have htold := h.told other
    simp only [Walk.tellsBelow_visit hdetached hfresh]
    rwa [hslot] at htold

end Carries

/-- Registering a node goes the way of the walk from it, if `fuel` exceeds the number of nodes that
may still join; more of it changes nothing. -/
theorem exists_carries_registerWithin (hsound : ArenaSound store) (htree : tree < store.trees.size)
    (fuel : Nat) (hjoins : Joins store tree visited now) (hid : id < store.nodes.size)
    (hbound : store.detachedNodes.card < fuel + visited.length) :
    ∃ result last after, (∀ deeper ≥ fuel, registerWithin tree deeper id now = result) ∧
      Carries store tree ⟨visited, [id]⟩ (Walk.TellsBelow store tree ⟨visited, [id]⟩) now
        result last after := by
  -- Only a node that joins goes a level deeper, so the fuel lasts as long as there are nodes to
  -- join.
  induction fuel generalizing visited now id with
  | zero =>
    have hlength := hjoins.length_le
    omega
  | succ fuel ih =>
    have hdeeper : ∀ deeper ≥ fuel + 1, ∃ less ≥ fuel, deeper = less + 1 :=
      fun deeper hge => ⟨deeper - 1, by omega, by omega⟩
    by_cases hvisited : id ∈ visited
    · obtain ⟨slot, hslot⟩ := hjoins.exists_slot hvisited
      refine ⟨_, _, now, ?_, .back (.again (hjoins.detached hvisited).2 hvisited) hjoins⟩
      intro deeper hge
      obtain ⟨less, -, rfl⟩ := hdeeper deeper hge
      rw [registerWithin_of_tree? (tree?_of_membership hslot), if_pos rfl]
    · have hsame := hjoins.membership_other hvisited
      cases hmembership : (store.node id).membership with
      | some home =>
        have howned := tree?_of_membership hmembership
        have hnow := tree?_of_membership (hsame.trans hmembership)
        by_cases hother : home.tree = tree
        · rw [hother] at howned
          refine ⟨_, _, now, ?_, .back (.known howned) hjoins⟩
          intro deeper hge
          obtain ⟨less, -, rfl⟩ := hdeeper deeper hge
          rw [registerWithin_of_tree? hnow, if_pos hother]
        · refine ⟨_, _, now, ?_, .stop howned hother hjoins⟩
          intro deeper hge
          obtain ⟨less, -, rfl⟩ := hdeeper deeper hge
          rw [registerWithin_of_tree? hnow, if_neg hother, hjoins.node]
      | none =>
        have hroom : store.detachedNodes.card < fuel + (visited ++ [id]).length := by
          rw [List.length_append, List.length_singleton]
          omega
        obtain ⟨result, last, after, hresult, hcarries⟩ :=
          exists_carries_adopt hsound ih (hjoins.enrol htree hid hmembership hvisited) hroom
            List.getElem?_concat_length fun child hchild => hchild
        refine ⟨result, last, after, ?_, hcarries.visit hmembership hvisited⟩
        intro deeper hge
        obtain ⟨less, hless, rfl⟩ := hdeeper deeper hge
        rw [registerWithin_of_detached (hsame.trans hmembership), hjoins.treeSize, hjoins.children]
        exact hresult less hless

/-- Registering a node goes the way of the walk from it, and could not go deeper. -/
theorem exists_carries_register (hsound : ArenaSound store) (htree : tree < store.trees.size)
    (hid : id < store.nodes.size) :
    ∃ last after,
      (∀ fuel > store.nodes.size, registerWithin tree fuel id store = register tree id store) ∧
      Carries store tree ⟨[], [id]⟩ (Walk.Tells store tree ⟨[], [id]⟩) store
        (register tree id store)
        last after := by
  have hbound : store.detachedNodes.card < store.nodes.size + 1 + ([] : List NodeId).length :=
    Nat.lt_succ_of_le (card_detachedNodes_le store)
  obtain ⟨result, last, after, hresult, hleads, hends, hjoins, htold⟩ :=
    exists_carries_registerWithin hsound htree (store.nodes.size + 1) (.refl store tree) hid hbound
  have hregister : register tree id store = result := hresult _ (Nat.le_refl _)
  rw [hregister]
  refine ⟨last, after, hresult, hleads, hends, hjoins, ?_⟩
  intro child
  refine (htold child).imp ?_ ?_
  · rintro ⟨parent, home, hbelow, hknown⟩
    exact ⟨parent, home, Walk.tells_of_tellsBelow hbelow [], hknown⟩
  · rintro ⟨hnone, hsame⟩
    refine ⟨fun parent htells => ?_, hsame⟩
    rcases Walk.tells_cons htells with ⟨-, hnowhere, -⟩ | hbelow | ⟨later, -, hrest⟩
    · exact absurd hnowhere List.not_mem_nil
    · exact hnone parent hbelow
    · exact Walk.not_tells_nil hrest

end RiskScan.Store

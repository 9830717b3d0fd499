import RiskScan.Proofs.Store.Traversal
/-!
# Cycles of children

Children are added to detached nodes without a look at what lies above them. So a node can be given
to one of its own descendants, as long as neither has joined a tree and the node has no parent yet.
This is the only way in which a cycle of children comes about, and a cycle stays once it is there.
All other attempts to put a node below itself are rejected: it is its own parent, or it has a
parent, or it belongs to a tree.
-/

namespace RiskScan.Store

open Relation

variable {store : Store} {parent child : NodeId}

def ChildAcyclic (store : Store) : Prop :=
  ∀ id, ¬ TransGen store.Owns id id

/-- An operation gives a detached node without a parent to one of its descendants. -/
def Closes (store : Store) : Operation → Prop
  | .addChild parent child =>
    (store.node child).hasParent = false ∧ (store.node child).membership = none ∧
      TransGen store.Owns child parent
  | _ => False

/-- A path that may use one more edge either does without it, or leads to it and on from it. -/
theorem transGen_of_edge {α : Type} {before after : α → α → Prop} {source target first last : α}
    (hafter : ∀ a b, after a b ↔ before a b ∨ a = source ∧ b = target)
    (h : TransGen after first last) :
    TransGen before first last ∨ ReflTransGen before first source ∧
    ReflTransGen before target last := by
  induction h with
  | single hstep =>
    rcases (hafter _ _).mp hstep with hold | ⟨rfl, rfl⟩
    · exact Or.inl (.single hold)
    · exact Or.inr ⟨.refl, .refl⟩
  | tail _ hstep ih =>
    rcases (hafter _ _).mp hstep with hold | ⟨rfl, rfl⟩
    · exact ih.imp (·.tail hold) fun ⟨hto, hfrom⟩ => ⟨hto, hfrom.tail hold⟩
    · exact Or.inr ⟨ih.elim TransGen.to_reflTransGen And.left, .refl⟩

theorem exists_cycle_iff_of_edge {α : Type} {before after : α → α → Prop} {source target : α}
    (hafter : ∀ a b, after a b ↔ before a b ∨ a = source ∧ b = target) :
    (∃ a, TransGen after a a) ↔ (∃ a, TransGen before a a) ∨ ReflTransGen before target source := by
  constructor
  · rintro ⟨a, hcycle⟩
    rcases transGen_of_edge hafter hcycle with hold | ⟨hto, hfrom⟩
    · exact Or.inl ⟨a, hold⟩
    · exact Or.inr (hfrom.trans hto)
  · have hmono : ∀ a b, before a b → after a b := fun a b h => (hafter a b).mpr (Or.inl h)
    rintro (⟨a, hcycle⟩ | hpath)
    · exact ⟨a, TransGen.mono hmono _ _ hcycle⟩
    · have hedge : after source target := (hafter _ _).mpr (Or.inr ⟨rfl, rfl⟩)
      exact ⟨source, .head' hedge (ReflTransGen.mono hmono _ _ hpath)⟩

theorem ChildAcyclic.iff_of_owns_iff {before after : Store}
    (h : ∀ first second, after.Owns first second ↔ before.Owns first second) :
    ChildAcyclic after ↔ ChildAcyclic before := by
  have howns : after.Owns = before.Owns := funext₂ fun first second => propext (h first second)
  rw [ChildAcyclic, howns, ChildAcyclic]

theorem lt_size_of_owns (h : store.Owns parent child) : parent < store.nodes.size := by
  refine Nat.lt_of_not_le fun hge => ?_
  rw [Owns, node_of_size_le hge] at h
  exact List.not_mem_nil h

/-! ### What each operation does to the children -/

theorem children_after_register (tree : TreeId) {id : NodeId} (hsound : ArenaSound store)
    (hid : id < store.nodes.size) (other : NodeId) :
    (((register tree id).after store).node other).children = (store.node other).children :=
  register_keeps tree id (P := fun now => (now.node other).children = (store.node other).children)
    (fun {now} candidate => (children_enrol now tree candidate other).trans)
    (fun {now} child slot => (children_setParentSlot now child other slot).trans)
    hsound.child_lt rfl hid

theorem Strict.closes_addChild_iff (h : Strict store) : store.Closes (.addChild parent child) ↔
    store.childError? parent child = none ∧ ReflTransGen store.Owns child parent := by
  constructor
  · rintro ⟨halone, hdetached, hpath⟩
    have hne : child ≠ parent := by
      rintro rfl
      obtain ⟨owner, -, howns⟩ := TransGen.tail'_iff.mp hpath
      exact h.linked.not_owns halone howns
    exact ⟨by simp [childError?, hne, halone, Node.tree?, hdetached], hpath.to_reflTransGen⟩
  · rintro ⟨hallowed, hpath⟩
    obtain ⟨hne, halone, hdetached⟩ := h.detached_of_childError? hallowed
    rcases reflTransGen_iff_eq_or_transGen.mp hpath with heq | hbelow
    · exact absurd heq.symm hne
    · exact ⟨halone, hdetached, hbelow⟩

/-- An ordinary operation leaves nodes free of cycles if they are before and it does not close
one. -/
theorem Strict.childAcyclic_after_iff (h : Strict store) {operation : Operation}
    (hallowed : operation.registersAlone = false) (hknown : store.knows operation) :
    ChildAcyclic (operation.after store) ↔ ChildAcyclic store ∧ ¬ store.Closes operation := by
  have hkept : ¬ store.Closes operation →
      (∀ id, ((operation.after store).node id).children = (store.node id).children) →
      (ChildAcyclic (operation.after store) ↔ ChildAcyclic store ∧ ¬ store.Closes operation) := by
    intro hnot hchildren
    rw [and_iff_left hnot]
    exact ChildAcyclic.iff_of_owns_iff fun first second => by rw [Owns, hchildren, Owns]
  cases hshape : operation.changesShape with
  | false =>
    refine hkept ?_ (Operation.sameShape_after hshape store).1.children
    cases operation <;> first | exact not_false | cases hshape
  | true =>
    cases operation with
    | create draft =>
      refine hkept not_false fun id => ?_
      rcases Operation.after_create draft store with hfail | ⟨node, hnode, hafter⟩
      · rw [hfail]
      · rw [hafter]
        exact create_keeps Node.children (draft.fresh_of_node hnode).children id
    | plant root =>
      refine hkept not_false fun id => ?_
      rw [Operation.after_plant, Store.after_plant]
      split
      · rfl
      · have hroot : root < store.nodes.size := by simpa [knows] using hknown
        exact children_after_register _ (h.sound.begin root) (by simpa using hroot) id
    | addChild parent child =>
      simp only [knows, Bool.and_eq_true, decide_eq_true_eq] at hknown
      cases herror : store.childError? parent child with
      | some error =>
        refine hkept (fun hcloses => ?_) fun id => ?_
        · rw [(h.closes_addChild_iff.mp hcloses).1] at herror
          cases herror
        · rw [Operation.after_addChild, Store.after_addChild, herror]
      | none =>
        obtain ⟨after, hafter, -, hregisters⟩ := h.addChild_of_childError? hknown.1 hknown.2 herror
        have hcycle := exists_cycle_iff_of_edge fun first second =>
          hregisters.owns_iff.trans (owns_link store child first second hknown.1)
        rw [Operation.after_addChild, StoreM.after, hafter, h.closes_addChild_iff,
          and_iff_right herror]
        simp only [ChildAcyclic, ← not_exists, ← not_or]
        exact not_congr hcycle
    | register tree id => cases hallowed
    | _ => cases hshape

theorem Strict.childAcyclic_run_iff (h : Strict store) (operations : List Operation)
    (hadmits : store.admits (fun operation => !operation.registersAlone) operations) :
    ChildAcyclic (store.run operations) ↔ ChildAcyclic store ∧ ∀ earlier operation later,
      operations = earlier ++ operation :: later → ¬ (store.run earlier).Closes operation := by
  induction operations generalizing store with
  | nil =>
    refine (and_iff_left ?_).symm
    intro earlier operation later heq
    cases earlier <;> cases heq
  | cons first rest ih =>
    simp only [admits, Bool.and_eq_true, Bool.not_eq_true'] at hadmits
    obtain ⟨⟨hallowed, hknown⟩, hrest⟩ := hadmits
    have hrun : store.run (first :: rest) = (first.after store).run rest := rfl
    rw [hrun, ih (h.step hallowed hknown) hrest, h.childAcyclic_after_iff hallowed hknown,
      and_assoc]
    refine and_congr_right fun _ => ?_
    constructor
    · rintro ⟨hfirst, hlater⟩ earlier operation later heq
      cases earlier with
      | nil =>
        cases heq
        exact hfirst
      | cons head earlier =>
        cases heq
        exact hlater earlier operation later rfl
    · intro heach
      exact ⟨heach [] first rest rfl, fun earlier operation later heq =>
        heach (first :: earlier) operation later (by rw [heq, List.cons_append])⟩

/-- Nothing but a child that closes a cycle can be put below itself. -/
theorem Strict.rejects_iff (h : Strict store) (hpath : ReflTransGen store.Owns child parent) :
    (∃ error, Store.addChild parent child store = .error error store) ↔
      ¬ store.Closes (.addChild parent child) := by
  rw [h.closes_addChild_iff, and_iff_left hpath]
  cases herror : store.childError? parent child with
  | some error =>
    refine iff_of_true ⟨error, ?_⟩ nofun
    rw [Store.addChild, herror]
  | none =>
    refine iff_of_false ?_ fun hnot => hnot rfl
    rintro ⟨error, hrejected⟩
    obtain ⟨hne, -⟩ := h.detached_of_childError? herror
    have hbelow := (reflTransGen_iff_eq_or_transGen.mp hpath).resolve_left (Ne.symm hne)
    obtain ⟨next, hnext, -⟩ := TransGen.head'_iff.mp hbelow
    obtain ⟨owner, -, howns⟩ := TransGen.tail'_iff.mp hbelow
    obtain ⟨after, hafter, -⟩ :=
      h.addChild_of_childError? (h.sound.child_lt howns) (lt_size_of_owns hnext) herror
    rw [hrejected] at hafter
    cases hafter

/-- Ordinary operations leave nodes free of cycles of children exactly if none of them gave a
detached node without a parent to one of its descendants. At any point, giving a node to itself or
to one of its descendants is rejected as a wrong value and changes nothing, unless the node is such
a one. -/
theorem childAcyclic_iff_none_closes (operations : List Operation)
    (hadmits : empty.admits (fun operation => !operation.registersAlone) operations) :
    (ChildAcyclic (empty.run operations) ↔ ∀ earlier operation later,
      operations = earlier ++ operation :: later → ¬ (empty.run earlier).Closes operation) ∧
    ∀ parent child, ReflTransGen (empty.run operations).Owns child parent →
      ((∃ error, Store.addChild parent child (empty.run operations) =
        .error error (empty.run operations) ∧
          error.fault.kind = .value) ↔
        ¬ (empty.run operations).Closes (.addChild parent child)) := by
  have hstrict : Strict (empty.run operations) := (reaches_run .refl operations hadmits).strict
  have hempty : ChildAcyclic empty := by
    intro id hcycle
    obtain ⟨next, hnext, -⟩ := TransGen.head'_iff.mp hcycle
    cases hnext
  refine ⟨?_, fun parent child hpath => ?_⟩
  · rw [Strict.empty.childAcyclic_run_iff operations hadmits, and_iff_right hempty]
  · rw [← hstrict.rejects_iff hpath]
    exact exists_congr fun error => and_iff_left rfl

/-- Node 2 is at the bottom of a chain when the top of the chain is given to it. -/
def closedRing : List Operation :=
  [.create { kind := "A", description := "" }, .create { kind := "B", description := "" },
    .create { kind := "C", description := "" }, .addChild 0 1, .addChild 1 2, .addChild 2 0]

/-- The ring is closed, and none of its nodes can be put below itself once more. -/
theorem childAcyclic_iff_of_closedRing :
    ¬ ChildAcyclic (empty.run closedRing) ∧
      ∃ error, Store.addChild 0 1 (empty.run closedRing) = .error error (empty.run closedRing) := by
  obtain ⟨hiff, hrejects⟩ := childAcyclic_iff_none_closes closedRing (by decide +kernel)
  have hfirst : 1 ∈ ((empty.run (closedRing.take 5)).node 0).children := by decide +kernel
  have hsecond : 2 ∈ ((empty.run (closedRing.take 5)).node 1).children := by decide +kernel
  have halone : ((empty.run (closedRing.take 5)).node 0).hasParent = false := by decide +kernel
  have hdetached : ((empty.run (closedRing.take 5)).node 0).membership = none := by decide +kernel
  have hdown : 2 ∈ ((empty.run closedRing).node 1).children := by decide +kernel
  have hback : 0 ∈ ((empty.run closedRing).node 2).children := by decide +kernel
  have howned : ((empty.run closedRing).node 1).hasParent = true := by decide +kernel
  refine ⟨fun hacyclic => ?_, ?_⟩
  · exact hiff.mp hacyclic (closedRing.take 5) (.addChild 2 0) [] rfl
      ⟨halone, hdetached, .tail (.single hfirst) hsecond⟩
  · have hpath : ReflTransGen (empty.run closedRing).Owns 1 0 := .tail (.single hdown) hback
    have hopen : ¬ (empty.run closedRing).Closes (.addChild 0 1) := by
      rintro ⟨hfree, -⟩
      rw [howned] at hfree
      cases hfree
    obtain ⟨error, herror, -⟩ := (hrejects 0 1 hpath).mpr hopen
    exact ⟨error, herror⟩

def ownedNode : List Operation :=
  [.create { kind := "A", description := "" }, .create { kind := "B", description := "" },
    .addChild 0 1]

/-- Node 0 is given to its own child, and is not refused. -/
theorem not_childAcyclic_of_ownedNode :
    OrdinarilyReachable (empty.run ownedNode) ∧
      ∃ after, Store.addChild 1 0 (empty.run ownedNode) = .ok () after ∧ ¬ ChildAcyclic after := by
  refine ⟨reaches_run .refl ownedNode (by decide +kernel), _, rfl, fun hacyclic => ?_⟩
  have hdown : (StoreM.after (Store.addChild 1 0) (empty.run ownedNode)).Owns 0 1 := by
    unfold Owns
    decide +kernel
  have hback : (StoreM.after (Store.addChild 1 0) (empty.run ownedNode)).Owns 1 0 := by
    unfold Owns
    decide +kernel
  exact hacyclic 0 (.tail (.single hdown) hback)

end RiskScan.Store

import Mathlib.Logic.Relation
import RiskScan.Proofs.Store.Ownership
/-!
# The walk of a registration

What a registration meets, and in which order, depends on the store before it only. The walk meets a
node before its children, and the children from left to right. It descends neither below a node of
the tree nor below one that it has met before, and it ends at the first node of another tree.

What is pending can be split anywhere. Either the walk is still at the first part, or it has gone
through it and is at the second; the second part does not matter before that.
-/

namespace RiskScan.Store

open Relation

/-- How far a walk has come: the detached nodes that it has met, in their order, and what comes
next. -/
structure Walk where
  visited : List NodeId
  pending : List NodeId

namespace Walk

inductive Step (store : Store) (tree : TreeId) : Walk → Walk → Prop where
  | known {visited pending : List NodeId} {id : NodeId}
    (isKnown : (store.node id).tree? = some tree) :
      Step store tree ⟨visited, id :: pending⟩ ⟨visited, pending⟩
  | again {visited pending : List NodeId} {id : NodeId}
    (detached : (store.node id).membership = none)
    (isVisited : id ∈ visited) : Step store tree ⟨visited, id :: pending⟩ ⟨visited, pending⟩
  | visit {visited pending : List NodeId} {id : NodeId}
    (detached : (store.node id).membership = none)
    (isFresh : id ∉ visited) :
      Step store tree ⟨visited, id :: pending⟩
        ⟨visited ++ [id], (store.node id).children ++ pending⟩

/-- A walk gets from one point to another. -/
abbrev Leads (store : Store) (tree : TreeId) : Walk → Walk → Prop :=
  ReflTransGen (Step store tree)

/-- A walk that cannot go on. -/
def Ended (store : Store) (tree : TreeId) (walk : Walk) : Prop :=
  ∀ next, ¬ Step store tree walk next

/-- What comes first below a node, and the node itself, is gone through without meeting another
tree. -/
def Completes (store : Store) (tree : TreeId) (visited : List NodeId) (id : NodeId) : Prop :=
  ∃ later, Leads store tree ⟨visited, [id]⟩ ⟨later, []⟩

/-- On the way from `start`, a child is met after its parent, and everything below it is gone
through. -/
def Tells (store : Store) (tree : TreeId) (start : Walk) (parent child : NodeId) : Prop :=
  ∃ visited pending, Leads store tree start ⟨visited, child :: pending⟩ ∧ parent ∈ visited ∧
    child ∈ (store.node parent).children ∧ Completes store tree visited child

/-- The same for what is met after the first step. -/
def TellsBelow (store : Store) (tree : TreeId) (start : Walk) (parent child : NodeId) : Prop :=
  ∃ next, Step store tree start next ∧ Tells store tree next parent child

variable {store : Store} {tree : TreeId} {walk start last : Walk} {id first parent child : NodeId}
  {visited later pending rest : List NodeId}

/-- There is only one walk from each point. -/
theorem step_unique {left right : Walk} (hleft : Step store tree walk left)
    (hright : Step store tree walk right) : left = right := by
  cases hleft with
  | known hknown =>
    cases hright with
    | known _ => rfl
    | again _ _ => rfl
    | visit hdetached _ =>
      rw [tree?_of_detached hdetached] at hknown
      cases hknown
  | again _ hvisited =>
    cases hright with
    | known _ => rfl
    | again _ _ => rfl
    | visit _ hfresh => exact absurd hvisited hfresh
  | visit hdetached hfresh =>
    cases hright with
    | known hknown =>
      rw [tree?_of_detached hdetached] at hknown
      cases hknown
    | again _ hvisited => exact absurd hvisited hfresh
    | visit _ _ => rfl

/-- Whatever is met lies on the way to the end. -/
theorem leads_ended (hlast : Leads store tree start last) (hended : Ended store tree last)
    (hwalk : Leads store tree start walk) : Leads store tree walk last := by
  have hunique : Relator.RightUnique (Step store tree) := fun _ _ _ => step_unique
  rcases ReflTransGen.total_of_right_unique hunique hlast hwalk with hbeyond | hbefore
  · rcases ReflTransGen.cases_head hbeyond with rfl | ⟨next, hnext, -⟩
    · exact .refl
    · exact absurd hnext (hended next)
  · exact hbefore

/-- There is only one end. -/
theorem ended_unique (hlast : Leads store tree start last) (hended : Ended store tree last)
    (hwalk : Leads store tree start walk) (hwalkEnded : Ended store tree walk) : walk = last := by
  rcases ReflTransGen.cases_head (leads_ended hlast hended hwalk) with hsame | ⟨next, hnext, -⟩
  · exact hsame
  · exact absurd hnext (hwalkEnded next)

theorem ended_nil : Ended store tree ⟨visited, []⟩ := by
  intro next hnext
  cases hnext

theorem ended_foreign {owner : TreeId} (howner : (store.node id).tree? = some owner)
    (hother : owner ≠ tree) : Ended store tree ⟨visited, id :: pending⟩ := by
  intro next hnext
  cases hnext with
  | known hknown =>
    rw [howner] at hknown
    exact hother (Option.some.inj hknown)
  | again hdetached _ =>
    rw [tree?_of_detached hdetached] at howner
    cases howner
  | visit hdetached _ =>
    rw [tree?_of_detached hdetached] at howner
    cases howner

theorem step_append {next : Walk} (h : Step store tree walk next) (rest : List NodeId) :
    Step store tree ⟨walk.visited, walk.pending ++ rest⟩ ⟨next.visited, next.pending ++ rest⟩ := by
  cases h with
  | known hknown => exact .known hknown
  | again hdetached hvisited => exact .again hdetached hvisited
  | visit hdetached hfresh =>
    rw [List.append_assoc]
    exact .visit hdetached hfresh

/-- What is pending behind does not matter. -/
theorem leads_append (h : Leads store tree start walk) (rest : List NodeId) :
    Leads store tree ⟨start.visited, start.pending ++ rest⟩
      ⟨walk.visited, walk.pending ++ rest⟩ := by
  induction h with
  | refl => exact .refl
  | tail _ hstep ih => exact ih.tail (step_append hstep rest)

/-- As long as something is pending in front, a step takes place there. -/
theorem step_of_append {next : Walk}
    (h : Step store tree ⟨visited, first :: pending ++ rest⟩ next) :
    ∃ front, next.pending = front ++ rest ∧
      Step store tree ⟨visited, first :: pending⟩ ⟨next.visited, front⟩ := by
  cases h with
  | known hknown => exact ⟨pending, rfl, .known hknown⟩
  | again hdetached hvisited => exact ⟨pending, rfl, .again hdetached hvisited⟩
  | visit hdetached hfresh =>
    exact ⟨_, (List.append_assoc _ pending rest).symm, .visit hdetached hfresh⟩

/-- A walk is still at the first part of what was pending, or it has gone through it. -/
theorem leads_split (h : Leads store tree ⟨visited, pending ++ rest⟩ walk) :
    (∃ front, walk.pending = front ++ rest ∧
      Leads store tree ⟨visited, pending⟩ ⟨walk.visited, front⟩) ∨
    ∃ later, Leads store tree ⟨visited, pending⟩ ⟨later, []⟩ ∧
      Leads store tree ⟨later, rest⟩ walk := by
  induction h with
  | refl => exact Or.inl ⟨pending, rfl, .refl⟩
  | @tail middle next _ hstep ih =>
    rcases ih with ⟨front, hfront, hleads⟩ | ⟨later, hfirst, hsecond⟩
    · obtain ⟨visited, pending⟩ := middle
      dsimp only at hfront hleads
      subst hfront
      cases front with
      | nil => exact Or.inr ⟨visited, hleads, .single hstep⟩
      | cons first front =>
        obtain ⟨after, hafter, hinner⟩ := step_of_append hstep
        exact Or.inl ⟨after, hafter, hleads.tail hinner⟩
    · exact Or.inr ⟨later, hfirst, hsecond.tail hstep⟩

/-- Nothing that has been met is forgotten. -/
theorem visited_isPrefix (h : Leads store tree start walk) : start.visited <+: walk.visited := by
  induction h with
  | refl => exact List.prefix_refl _
  | tail _ hstep ih =>
    cases hstep with
    | known _ => exact ih
    | again _ _ => exact ih
    | visit _ _ => exact ih.trans (List.prefix_append _ _)

/-- A walk that ends elsewhere has not gone through everything. -/
theorem not_completes (hlast : Leads store tree ⟨visited, [id]⟩ ⟨later, first :: rest⟩)
    (hended : Ended store tree ⟨later, first :: rest⟩) : ¬ Completes store tree visited id := by
  rintro ⟨other, hleads⟩
  cases ended_unique hlast hended hleads ended_nil

theorem not_tells_nil : ¬ Tells store tree ⟨visited, []⟩ parent child := by
  rintro ⟨met, pending, hleads, -⟩
  rcases ReflTransGen.cases_head hleads with hsame | ⟨next, hnext, -⟩
  · cases hsame
  · exact ended_nil next hnext

/-- Who is told on the way through several nodes is the first of them, or is told on the way through
it or through the others. -/
theorem tells_cons (h : Tells store tree ⟨visited, first :: rest⟩ parent child) :
    (child = first ∧ parent ∈ visited ∧ Completes store tree visited first) ∨
    TellsBelow store tree ⟨visited, [first]⟩ parent child ∨
    ∃ later, Leads store tree ⟨visited, [first]⟩ ⟨later, []⟩ ∧
      Tells store tree ⟨later, rest⟩ parent child := by
  obtain ⟨met, pending, hleads, hparent, hchild, hcompletes⟩ := h
  have hsplit : Leads store tree ⟨visited, [first] ++ rest⟩ ⟨met, child :: pending⟩ := hleads
  rcases leads_split hsplit with ⟨front, hfront, hinner⟩ | ⟨later, hfirst, hsecond⟩
  · dsimp only at hfront hinner
    cases front with
    | nil =>
      refine Or.inr (Or.inr ⟨met, hinner, met, pending, ?_, hparent, hchild, hcompletes⟩)
      rw [hfront]
      exact .refl
    | cons candidate front =>
      cases hfront
      rcases ReflTransGen.cases_head hinner with hsame | ⟨next, hnext, hrest⟩
      · cases hsame
        exact Or.inl ⟨rfl, hparent, hcompletes⟩
      · exact Or.inr (Or.inl ⟨next, hnext, met, front, hrest, hparent, hchild, hcompletes⟩)
  · exact Or.inr (Or.inr ⟨later, hfirst, met, pending, hsecond, hparent, hchild, hcompletes⟩)

theorem tells_of_leads (h : Leads store tree start walk)
    (htells : Tells store tree walk parent child) :
    Tells store tree start parent child := by
  obtain ⟨met, pending, hleads, hmet⟩ := htells
  exact ⟨met, pending, h.trans hleads, hmet⟩

theorem tells_append (h : Tells store tree ⟨visited, pending⟩ parent child) (rest : List NodeId) :
    Tells store tree ⟨visited, pending ++ rest⟩ parent child := by
  obtain ⟨met, behind, hleads, hmet⟩ := h
  exact ⟨met, behind ++ rest, leads_append hleads rest, hmet⟩

/-- What is told below the first of several nodes is told on the way through all of them. -/
theorem tells_of_tellsBelow (h : TellsBelow store tree ⟨visited, [first]⟩ parent child)
    (rest : List NodeId) : Tells store tree ⟨visited, first :: rest⟩ parent child := by
  obtain ⟨⟨met, behind⟩, hnext, htells⟩ := h
  exact tells_of_leads (.single (step_append hnext rest)) (tells_append htells rest)

/-- Nothing is told below a node where the walk turns back. -/
theorem not_tellsBelow_of_step (h : Step store tree ⟨visited, [id]⟩ ⟨visited, []⟩) :
    ¬ TellsBelow store tree ⟨visited, [id]⟩ parent child := by
  rintro ⟨next, hnext, htells⟩
  rw [step_unique hnext h] at htells
  exact not_tells_nil htells

/-- With nothing else pending, the children of a node come next. -/
theorem step_single (hdetached : (store.node id).membership = none) (hfresh : id ∉ visited) :
    Step store tree ⟨visited, [id]⟩ ⟨visited ++ [id], (store.node id).children⟩ := by
  have hstep : Step store tree ⟨visited, [id]⟩ ⟨visited ++ [id], (store.node id).children ++ []⟩ :=
    .visit hdetached hfresh
  rwa [List.append_nil] at hstep

theorem tellsBelow_visit (hdetached : (store.node id).membership = none) (hfresh : id ∉ visited) :
    TellsBelow store tree ⟨visited, [id]⟩ parent child ↔
      Tells store tree ⟨visited ++ [id], (store.node id).children⟩ parent child := by
  have hvisit : Step store tree ⟨visited, [id]⟩ ⟨visited ++ [id], (store.node id).children⟩ :=
    step_single hdetached hfresh
  constructor
  · rintro ⟨next, hnext, htells⟩
    rwa [step_unique hnext hvisit] at htells
  · exact fun htells => ⟨_, hvisit, htells⟩

/-- Nothing is pending twice, and whatever is pending has been brought by its owner. -/
structure Brought (store : Store) (walk : Walk) : Prop where
  nodup : walk.pending.Nodup
  owner {id : NodeId} : id ∈ walk.pending → ∃ owner ∈ walk.visited, store.Owns owner id

theorem Brought.step {next : Walk} (hlinked : Linked store) (h : Brought store walk)
    (hstep : Step store tree walk next) : Brought store next := by
  obtain ⟨hnodup, howner⟩ := h
  cases hstep with
  | known _ => exact ⟨(List.nodup_cons.mp hnodup).2, fun hmem =>
    howner (List.mem_cons_of_mem _ hmem)⟩
  | again _ _ =>
    exact ⟨(List.nodup_cons.mp hnodup).2, fun hmem => howner (List.mem_cons_of_mem _ hmem)⟩
  | @visit visited pending first _ hfresh =>
    constructor
    · refine List.nodup_append.mpr ⟨hlinked.nodup first, (List.nodup_cons.mp hnodup).2, ?_⟩
      rintro other hchild _ hother rfl
      obtain ⟨owner, hvisited, howns⟩ := howner (List.mem_cons_of_mem first hother)
      rw [hlinked.unique howns hchild] at hvisited
      exact hfresh hvisited
    · intro other hother
      rcases List.mem_append.mp hother with hchild | hold
      · exact ⟨first, List.mem_append_right visited (List.mem_singleton_self first), hchild⟩
      · obtain ⟨owner, hvisited, howns⟩ := howner (List.mem_cons_of_mem first hold)
        exact ⟨owner, List.mem_append_left [first] hvisited, howns⟩

theorem Brought.leads (hlinked : Linked store) (h : Brought store start)
    (hleads : Leads store tree start walk) : Brought store walk := by
  induction hleads with
  | refl => exact h
  | tail _ hstep ih => exact ih.step hlinked hstep

/-- From a single node on, everything is brought once something has been met. -/
theorem brought_of_leads (hlinked : Linked store) (h : Leads store tree ⟨[], [id]⟩ walk)
    (hvisited : walk.visited ≠ []) : Brought store walk := by
  rcases ReflTransGen.cases_head h with rfl | ⟨next, hnext, hrest⟩
  · exact absurd rfl hvisited
  · refine Brought.leads hlinked ?_ hrest
    cases hnext with
    | known _ => exact ⟨List.nodup_nil, fun hmem => absurd hmem List.not_mem_nil⟩
    | again _ _ => exact ⟨List.nodup_nil, fun hmem => absurd hmem List.not_mem_nil⟩
    | visit _ _ =>
      rw [List.append_nil]
      exact ⟨hlinked.nodup id, fun hchild => ⟨id, List.mem_singleton_self id, hchild⟩⟩

/-- What is gone after its owner has been met does not come back. -/
theorem not_pending_of_leads (hlinked : Linked store) (howns : store.Owns parent child)
    (hparent : parent ∈ start.visited) (hgone : child ∉ start.pending)
    (h : Leads store tree start walk) :
    child ∉ walk.pending := by
  induction h with
  | refl => exact hgone
  | tail hbefore hstep ih =>
    cases hstep with
    | known _ => exact fun hmem => ih (List.mem_cons_of_mem _ hmem)
    | again _ _ => exact fun hmem => ih (List.mem_cons_of_mem _ hmem)
    | visit _ hfresh =>
      intro hmem
      rcases List.mem_append.mp hmem with hchild | hold
      · rw [← hlinked.unique howns hchild] at hfresh
        exact hfresh ((visited_isPrefix hbefore).subset hparent)
      · exact ih (List.mem_cons_of_mem _ hold)

/-- A child that is met after its owner is not met again. -/
theorem leads_of_met (hlinked : Linked store) (howns : store.Owns parent child)
    (hparent : parent ∈ visited) (hbrought : Brought store ⟨visited, child :: pending⟩)
    (h : Leads store tree ⟨visited, child :: pending⟩ ⟨later, child :: rest⟩) :
    later = visited := by
  rcases ReflTransGen.cases_head h with hsame | ⟨next, hnext, hbehind⟩
  · cases hsame
    rfl
  · have hgone : child ∉ pending := (List.nodup_cons.mp hbrought.nodup).1
    have hback : parent ∈ next.visited ∧ child ∉ next.pending := by
      cases hnext with
      | known _ => exact ⟨hparent, hgone⟩
      | again _ _ => exact ⟨hparent, hgone⟩
      | visit _ hfresh =>
        refine ⟨List.mem_append_left [child] hparent, fun hmem => ?_⟩
        rcases List.mem_append.mp hmem with hself | hold
        · rw [← hlinked.unique howns hself] at hfresh
          exact hfresh hparent
        · exact hgone hold
    exact absurd List.mem_cons_self (not_pending_of_leads hlinked howns hback.1 hback.2 hbehind)

/-- Where a child is met after its owner, it is told exactly if it is gone through from there. -/
theorem tells_iff_completes (hlinked : Linked store)
    (hmet : Leads store tree ⟨[], [id]⟩ ⟨visited, child :: pending⟩) (hparent : parent ∈ visited)
    (howns : store.Owns parent child) :
    Tells store tree ⟨[], [id]⟩ parent child ↔ Completes store tree visited child := by
  constructor
  · rintro ⟨other, behind, hother, hparentOther, -, hcompletes⟩
    have hunique : Relator.RightUnique (Step store tree) := fun _ _ _ => step_unique
    rcases ReflTransGen.total_of_right_unique hunique hmet hother with hlater | hearlier
    · rwa [← leads_of_met hlinked howns hparent
        (brought_of_leads hlinked hmet (List.ne_nil_of_mem hparent)) hlater]
    · rwa [leads_of_met hlinked howns hparentOther
        (brought_of_leads hlinked hother (List.ne_nil_of_mem hparentOther)) hearlier]
  · exact fun hcompletes => ⟨visited, pending, hmet, hparent, howns, hcompletes⟩

end Walk

end RiskScan.Store

import RiskScan.Proofs.Store.Traversal
/-!
# Outlines laid out in full

An outline is cut off at a depth, and visiting a stack is cut off at a number of nodes. If the
children below a node form a tree, neither cut is reached: visiting meets every node once, so there
are no more nodes to meet than there are nodes, and no way down is longer than what is met. The
outline then shows the children of each of its nodes, and its nodes in their order are those that
visiting meets.
-/

namespace RiskScan

namespace Outline

mutual

/-- The nodes of an outline, each before those below it. -/
def nodes : Outline → List NodeId
  | .node id outlines => id :: nodesOfAll outlines

def nodesOfAll : List Outline → List NodeId
  | [] => []
  | outline :: outlines => outline.nodes ++ nodesOfAll outlines

end

mutual

/-- An outline shows all children of each of its nodes. -/
def Shows (store : Store) : Outline → Prop
  | .node id outlines => outlines.map Outline.id = (store.node id).children ∧
      ShowsAll store outlines

def ShowsAll (store : Store) : List Outline → Prop
  | [] => True
  | outline :: outlines => outline.Shows store ∧ ShowsAll store outlines

end

end Outline

namespace Store

open Relation

/-- Following children from a node comes to an end and meets no node twice. -/
def ChildTree (store : Store) (id : NodeId) : Prop :=
  ∃ order, Visits store [id] order ∧ order.Nodup

variable {store : Store} {id : NodeId} {order : List NodeId}

namespace Visits

/-- What is met from the first part of a stack comes before what is met from the rest. -/
theorem split {first second : List NodeId} (h : Visits store (first ++ second) order) :
    ∃ left right, order = left ++ right ∧ Visits store first left ∧ Visits store second right := by
  generalize hstack : first ++ second = stack at h
  induction h generalizing first with
  | done =>
    obtain ⟨rfl, rfl⟩ := List.append_eq_nil_iff.mp hstack
    exact ⟨[], [], rfl, .done, .done⟩
  | @next id stack order hrest ih =>
    rcases List.append_eq_cons_iff.mp hstack with ⟨rfl, rfl⟩ | ⟨others, rfl, rfl⟩
    · exact ⟨[], id :: order, rfl, .done, .next hrest⟩
    · obtain ⟨left, right, rfl, hleft, hright⟩ :=
        ih (List.append_assoc (store.node id).children others second)
      exact ⟨id :: left, right, rfl, .next hleft, hright⟩

theorem eq_nil_of_order (h : Visits store order []) : order = [] := by
  cases h
  rfl

end Visits

theorem id_outlineWithin (store : Store) (fuel : Nat) (id : NodeId) :
    (store.outlineWithin fuel id).id = id := by
  cases fuel <;> rfl

/-- An outline that is at least as deep as there are nodes to meet is complete. -/
theorem shows_outlineWithin {fuel : Nat} (h : Visits store [id] order)
    (hfuel : order.length ≤ fuel + 1) :
    (store.outlineWithin fuel id).Shows store ∧ (store.outlineWithin fuel id).nodes = order := by
  induction fuel generalizing id order with
  | zero =>
    cases h with
    | @next _ _ order hrest =>
      rw [List.append_nil] at hrest
      have hnone : order = [] := List.length_eq_zero_iff.mp (by simpa using hfuel)
      subst hnone
      rw [outlineWithin, Outline.Shows, Outline.nodes, hrest.eq_nil_of_order]
      exact ⟨⟨rfl, trivial⟩, rfl⟩
  | succ fuel ih =>
    -- What is met from one of several children is no more than what is met from all of them.
    have hall : ∀ {children order : List NodeId}, Visits store children order →
        order.length ≤ fuel + 1 →
        Outline.ShowsAll store (children.map (store.outlineWithin fuel)) ∧
          Outline.nodesOfAll (children.map (store.outlineWithin fuel)) = order := by
      intro children
      induction children with
      | nil =>
        intro order hvisits _
        cases hvisits
        exact ⟨trivial, rfl⟩
      | cons child children ihchildren =>
        intro order hvisits hlength
        rw [← List.singleton_append] at hvisits
        obtain ⟨left, right, rfl, hleft, hright⟩ := hvisits.split
        rw [List.length_append] at hlength
        obtain ⟨hshows, hnodes⟩ := ih hleft (by omega)
        obtain ⟨hshowsAll, hnodesAll⟩ := ihchildren hright (by omega)
        rw [List.map_cons, Outline.ShowsAll, Outline.nodesOfAll, hnodes, hnodesAll]
        exact ⟨⟨hshows, hshowsAll⟩, rfl⟩
    cases h with
    | @next _ _ order hrest =>
      rw [List.append_nil] at hrest
      obtain ⟨hshows, hnodes⟩ := hall hrest (Nat.le_of_succ_le_succ hfuel)
      rw [outlineWithin, Outline.Shows, Outline.nodes, hnodes, List.map_map]
      refine ⟨⟨?_, hshows⟩, rfl⟩
      calc (store.node id).children.map (Outline.id ∘ store.outlineWithin fuel)
          = (store.node id).children.map fun child => child :=
            List.map_congr_left fun child _ => id_outlineWithin store fuel child
        _ = (store.node id).children := List.map_id _

namespace ChildTree

theorem visits_subtree (h : store.ChildTree id) (hsound : ArenaSound store)
    (hid : id < store.nodes.size) :
    Visits store [id] (store.subtree id) ∧ (store.subtree id).Nodup := by
  obtain ⟨order, hvisits, hnodup⟩ := h
  have hsubtree : store.subtree id = order := hvisits.visit_eq (hvisits.length_le hnodup hsound hid)
  rw [hsubtree]
  exact ⟨hvisits, hnodup⟩

/-- The outline of a node below which the children form a tree is complete. -/
theorem shows_outline (h : store.ChildTree id) (hsound : ArenaSound store)
    (hid : id < store.nodes.size) :
    (store.outline id).Shows store ∧ (store.outline id).nodes = store.subtree id := by
  obtain ⟨hvisits, hnodup⟩ := h.visits_subtree hsound hid
  exact shows_outlineWithin hvisits (Nat.le_succ_of_le (hvisits.length_le hnodup hsound hid))

end ChildTree

theorem Strict.childTree (h : Strict store) {home : Membership}
    (hid : (store.node id).membership = some home) : store.ChildTree id :=
  ⟨store.subtree id, h.visits_subtree hid⟩

end Store

end RiskScan

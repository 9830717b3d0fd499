import RiskScan.Proofs.Compound.Settled
import RiskScan.Proofs.Store.Outlines
/-!
# What a dump and a rendering have in common

A dump and a rendering ask the same nodes in the same order, each node before those below it. Along
a cycle of dependencies the answers depend on this order, and on what has been asked before. But a
node that has been asked keeps its answer, whatever is asked afterwards. So the first of the two
settles what the second will show, and the rendering is what can be read off the dump.
-/

namespace RiskScan

open Markup

namespace DumpFields

/-- The severity of a dump, with the compound severity where it differs. -/
def label (fields : DumpFields) : String :=
  if fields.compound = fields.severity then fields.severity.label
  else fields.severity.label ++ " → " ++ fields.compound.label

/-- The lines for what a dump holds, without those of its children. -/
def lines (fields : DumpFields) (level : Int) : String :=
  indentation level ++ "[" ++ fields.severity.style ++ "]\\[" ++ fields.label ++ "] " ++
      escape fields.kind ++ ": " ++ escape fields.description ++ "[/" ++
        fields.severity.style ++ "]\n" ++
    optionalDetail level "Evidence" fields.evidence ++
    optionalDetail level "Reasoning" fields.reasoning ++
    (if 0.0 < fields.confidence.value then
      detailLine level "dim" "Confidence" fields.confidence.percent else "") ++
    String.join (fields.mitigations.map fun mitigation =>
      detailLine level "dim green" "Mitigation" (escape mitigation))

end DumpFields

namespace Dump

mutual

/-- The text for a dump, level by level. -/
def text (level : Int) : Dump → String
  | .node fields children => fields.lines level ++ textOfAll (level + 1) children

def textOfAll (level : Int) : List Dump → String
  | [] => ""
  | dump :: dumps => dump.text level ++ textOfAll level dumps

end

mutual

/-- The slots of a dump, those of its top before those of its children. -/
def ids : Dump → List (Option Nat)
  | .node fields children => fields.id :: idsOfAll children

def idsOfAll : List Dump → List (Option Nat)
  | [] => []
  | dump :: dumps => dump.ids ++ idsOfAll dumps

end

end Dump

namespace Store

variable {store : Store} {id : NodeId}

theorem lines_dumpFields (store : Store) (id : NodeId) (compound : Severity) (level : Int) :
    (store.dumpFields id compound).lines level = (store.node id).lines level compound := by
  rfl

/-! ### Answers that stay -/

/-- What the node has answered counts as long as the revision of its tree stays. -/
def Answered (store : Store) (id : NodeId) : Prop :=
  ∀ home, (store.node id).membership = some home → (store.node id).dependencies ≠ [] →
    ∃ severity, (store.node id).memoAt? (store.tree home.tree).revision = some severity

theorem compoundNow_of_dependencies_nil (hnone : (store.node id).dependencies = []) :
    store.compoundNow id = (store.node id).severity := by
  simp only [compoundNow, compound?, compoundWithin, hnone, List.isEmpty_nil, if_true,
    Option.getD_some]

theorem compoundNow_of_memoAt? {home : Membership} {severity : Severity}
    (hid : (store.node id).membership = some home) (hsome : (store.node id).dependencies ≠ [])
    (hmemo : (store.node id).memoAt? (store.tree home.tree).revision = some severity) :
    store.compoundNow id = severity := by
  have hnonempty : (store.node id).dependencies.isEmpty = false := by simpa using hsome
  simp only [compoundNow, compound?, compoundWithin, hid, hmemo, hnonempty, Bool.false_eq_true,
    if_false, Option.getD_some]

theorem compoundNow_of_membership_none (hid : (store.node id).membership = none) :
    store.compoundNow id = (store.node id).severity := by
  simp only [compoundNow, compound?, compoundWithin, hid]
  split <;> rfl

/-- Nothing is remembered in a node that is not asked. -/
theorem node_remember_of_ne {other : NodeId} (hne : id ≠ other) (severity : Severity) :
    (store.remember other severity).node id = store.node id := by
  cases hother : (store.node other).membership with
  | none => rw [remember_of_detached severity hother]
  | some home =>
    by_cases hnone : (store.node other).dependencies = []
    · rw [remember_of_dependencies_nil severity hnone]
    · rw [node_remember_of_membership id severity hother hnone, if_neg hne]

/-- Whoever has just been asked has answered, and stays by the answer. -/
theorem answered_remember (store : Store) (id : NodeId) :
    (store.remember id (store.compoundNow id)).Answered id ∧
      (store.remember id (store.compoundNow id)).compoundNow id = store.compoundNow id := by
  cases hid : (store.node id).membership with
  | none =>
    rw [remember_of_detached _ hid]
    refine ⟨fun home hhome => ?_, rfl⟩
    rw [hid] at hhome
    cases hhome
  | some home =>
    by_cases hnone : (store.node id).dependencies = []
    · rw [remember_of_dependencies_nil _ hnone]
      exact ⟨fun _ _ hsome => absurd hnone hsome, rfl⟩
    · have hnode := node_remember_of_membership id (store.compoundNow id) hid hnone
      rw [if_pos rfl] at hnode
      have hmemo : ((store.remember id (store.compoundNow id)).node id).memoAt?
          ((store.remember id (store.compoundNow id)).tree home.tree).revision =
            some (store.compoundNow id) := by
        rw [hnode, tree_remember]
        exact memoAt?_of_memo rfl
      have hhome : ((store.remember id (store.compoundNow id)).node id).membership = some home := by
        rw [hnode, hid]
      refine ⟨?_, compoundNow_of_memoAt? hhome ?_ hmemo⟩
      · intro other hother _
        rw [hhome] at hother
        cases hother
        exact ⟨_, hmemo⟩
      · rwa [hnode]

namespace Answered

/-- An answer that has been given is told by the node and its tree alone. -/
theorem compoundNow_eq (h : store.Answered id) {after : Store}
    (hnode : after.node id = store.node id) (htree : ∀ tree, after.tree tree = store.tree tree) :
    after.compoundNow id = store.compoundNow id := by
  by_cases hnone : (store.node id).dependencies = []
  · rw [compoundNow_of_dependencies_nil hnone,
      compoundNow_of_dependencies_nil (by rw [hnode, hnone]), hnode]
  · cases hid : (store.node id).membership with
    | none =>
      rw [compoundNow_of_membership_none hid, compoundNow_of_membership_none (by rw [hnode, hid]),
        hnode]
    | some home =>
      obtain ⟨severity, hmemo⟩ := h home hid hnone
      rw [compoundNow_of_memoAt? hid hnone hmemo]
      rw [← hnode] at hid hnone hmemo
      rw [← htree] at hmemo
      exact compoundNow_of_memoAt? hid hnone hmemo

/-- What others are asked does not change it. -/
theorem remember (h : store.Answered id) (other : NodeId) :
    (store.remember other (store.compoundNow other)).Answered id ∧
      (store.remember other (store.compoundNow other)).compoundNow id = store.compoundNow id := by
  by_cases heq : id = other
  · rw [heq]
    exact answered_remember store other
  · have hnode : (store.remember other (store.compoundNow other)).node id = store.node id :=
      node_remember_of_ne heq _
    refine ⟨?_, h.compoundNow_eq hnode (tree_remember store other _)⟩
    intro home hhome hsome
    rw [hnode] at hhome hsome
    rw [hnode, tree_remember]
    exact h home hhome hsome

theorem settled (h : store.Answered id) : store.Settled id := by
  intro ids
  induction ids generalizing store with
  | nil => rfl
  | cons other ids ih =>
    obtain ⟨hanswered, hsame⟩ := h.remember other
    rw [ask_cons, ih hanswered, hsame]

end Answered

theorem compoundNow_ask_self (store : Store) (id : NodeId) (ids : List NodeId) :
    (store.ask (id :: ids)).compoundNow id = store.compoundNow id := by
  obtain ⟨hanswered, hsame⟩ := answered_remember store id
  rw [ask_cons, hanswered.settled ids, hsame]

end Store

namespace Outline

/-! ### One pass -/

mutual

/-- A dump shows what every node answers after it, whatever else is asked then. -/
theorem dump_eq_dumped (store : Store) (later : List NodeId) : (outline : Outline) →
    outline.dump store =
      (outline.dumped (store.ask (outline.nodes ++ later)), store.ask outline.nodes)
  | .node id outlines => by
    have hrun : (Outline.node id outlines).dump store =
        (.node ((store.ask [id]).dumpFields id (store.compoundNow id))
          (dumpAll outlines (store.ask [id])).1, (dumpAll outlines (store.ask [id])).2) := by
      rw [Outline.dump]
      rfl
    have hself : (store.ask (id :: nodesOfAll outlines ++ later)).compoundNow id =
        store.compoundNow id :=
      Store.compoundNow_ask_self store id (nodesOfAll outlines ++ later)
    rw [hrun, dumpAll_eq_dumpedAll (store.ask [id]) later outlines, ← Store.ask_append,
      ← Store.ask_append, dumped, nodes, Store.dumpFields_ask, Store.dumpFields_ask, hself]
    rfl

theorem dumpAll_eq_dumpedAll (store : Store) (later : List NodeId) : (outlines : List Outline) →
    dumpAll outlines store =
      (dumpedAll (store.ask (nodesOfAll outlines ++ later)) outlines,
        store.ask (nodesOfAll outlines))
  | [] => rfl
  | outline :: outlines => by
    have hrun : dumpAll (outline :: outlines) store =
        ((outline.dump store).1 :: (dumpAll outlines (outline.dump store).2).1,
          (dumpAll outlines (outline.dump store).2).2) := by
      rw [dumpAll]
      rfl
    rw [hrun, dump_eq_dumped store (nodesOfAll outlines ++ later) outline,
      dumpAll_eq_dumpedAll (store.ask outline.nodes) later outlines, ← Store.ask_append,
      ← Store.ask_append, dumpedAll, nodesOfAll, List.append_assoc]

end

mutual

/-- So does a rendering. -/
theorem render_eq_rendered (store : Store) (later : List NodeId) (level : Int) :
    (outline : Outline) →
    outline.render level store =
      (outline.rendered (store.ask (outline.nodes ++ later)) level, store.ask outline.nodes)
  | .node id outlines => by
    have hrun : (Outline.node id outlines).render level store =
        (((store.ask [id]).node id).lines level (store.compoundNow id) ++
          (renderAll (level + 1) outlines (store.ask [id])).1,
          (renderAll (level + 1) outlines (store.ask [id])).2) := by
      rw [Outline.render]
      rfl
    have hlines : ∀ ids severity, ((store.ask ids).node id).lines level severity =
        (store.node id).lines level severity :=
      fun ids severity =>
        Store.ask_keeps (fun node => node.lines level severity) (fun _ _ => rfl) store ids id
    have hself : (store.ask (id :: nodesOfAll outlines ++ later)).compoundNow id =
        store.compoundNow id :=
      Store.compoundNow_ask_self store id (nodesOfAll outlines ++ later)
    rw [hrun, renderAll_eq_renderedAll (store.ask [id]) later (level + 1) outlines,
      ← Store.ask_append, ← Store.ask_append, rendered, nodes, hlines, hlines, hself]
    rfl

theorem renderAll_eq_renderedAll (store : Store) (later : List NodeId) (level : Int) :
    (outlines : List Outline) → renderAll level outlines store =
      (renderedAll (store.ask (nodesOfAll outlines ++ later)) level outlines,
        store.ask (nodesOfAll outlines))
  | [] => rfl
  | outline :: outlines => by
    have hrun : renderAll level (outline :: outlines) store =
        ((outline.render level store).1 ++
          (renderAll level outlines (outline.render level store).2).1,
          (renderAll level outlines (outline.render level store).2).2) := by
      rw [renderAll]
      rfl
    rw [hrun, render_eq_rendered store (nodesOfAll outlines ++ later) level outline,
      renderAll_eq_renderedAll (store.ask outline.nodes) later level outlines, ← Store.ask_append,
      ← Store.ask_append, renderedAll, nodesOfAll, List.append_assoc]

end

/-! ### Reading the rendering off the dump -/

mutual

theorem text_dumped (store : Store) (level : Int) : (outline : Outline) →
    (outline.dumped store).text level = outline.rendered store level
  | .node id outlines => by
    rw [dumped, Dump.text, rendered, Store.lines_dumpFields,
      textOfAll_dumpedAll store (level + 1) outlines]

theorem textOfAll_dumpedAll (store : Store) (level : Int) : (outlines : List Outline) →
    Dump.textOfAll level (dumpedAll store outlines) = renderedAll store level outlines
  | [] => rfl
  | outline :: outlines => by
    rw [dumpedAll, Dump.textOfAll, renderedAll, text_dumped store level outline,
      textOfAll_dumpedAll store level outlines]

end

mutual

theorem ids_dumped (store : Store) : (outline : Outline) →
    (outline.dumped store).ids = outline.nodes.map fun id => (store.node id).slot?
  | .node id outlines => by
    rw [dumped, Dump.ids, nodes, List.map_cons, idsOfAll_dumpedAll store outlines]
    rfl

theorem idsOfAll_dumpedAll (store : Store) : (outlines : List Outline) →
    Dump.idsOfAll (dumpedAll store outlines) =
      (nodesOfAll outlines).map fun id => (store.node id).slot?
  | [] => rfl
  | outline :: outlines => by
    rw [dumpedAll, Dump.idsOfAll, nodesOfAll, List.map_append, ids_dumped store outline,
      idsOfAll_dumpedAll store outlines]

end

end Outline

namespace Store

variable {store : Store} {id : NodeId}

/-- However a store came about, and whatever has been asked before: if the children below a node
form a tree, its dump and its rendering describe the same nodes, whichever of the two is made first,
and however far the rendering is indented. The rendering is the text of the dump, and the slots in
the dump are those of the nodes that visiting meets, in the same order. -/
theorem displays_of_reachable (hreachable : Reachable store) (hid : id < store.nodes.size)
    (htree : store.ChildTree id) :
    ∃ shown : Dump,
      (dump id store).1 = shown ∧
      (∀ level, (render level id store).1 = shown.text level) ∧
      (∀ level, (render level id (dump id store).2).1 = shown.text level) ∧
      (∀ level, (dump id (render level id store).2).1 = shown) ∧
      shown.ids = (store.subtree id).map fun other => (store.node other).slot? := by
  obtain ⟨-, hnodes⟩ := htree.shows_outline hreachable.arenaSound hid
  have hdump : ∀ ids, dump id (store.ask ids) = (store.outline id).dump (store.ask ids) := by
    intro ids
    rw [← outline_ask store ids id]
    rfl
  have hrender : ∀ level ids,
      render level id (store.ask ids) = (store.outline id).render level (store.ask ids) := by
    intro level ids
    rw [← outline_ask store ids id]
    rfl
  -- Both ask these nodes, so after the first of them nothing is left to settle.
  let asked := (store.outline id).nodes
  have hdumpFirst : dump id store =
      ((store.outline id).dumped (store.ask (asked ++ asked)), store.ask asked) :=
    (hdump []).trans (Outline.dump_eq_dumped store asked (store.outline id))
  have hrenderFirst : ∀ level, render level id store =
      ((store.outline id).rendered (store.ask (asked ++ asked)) level, store.ask asked) :=
    fun level =>
      (hrender level []).trans (Outline.render_eq_rendered store asked level (store.outline id))
  have hdumpSecond : (dump id (store.ask asked)).1 =
      (store.outline id).dumped (store.ask (asked ++ asked)) := by
    rw [hdump asked, Outline.dump_eq_dumped (store.ask asked) [] (store.outline id),
      List.append_nil, ← ask_append]
  have hrenderSecond : ∀ level, (render level id (store.ask asked)).1 =
      (store.outline id).rendered (store.ask (asked ++ asked)) level := by
    intro level
    rw [hrender level asked,
      Outline.render_eq_rendered (store.ask asked) [] level (store.outline id), List.append_nil,
      ← ask_append]
  refine ⟨(store.outline id).dumped (store.ask (asked ++ asked)), ?_, ?_, ?_, ?_, ?_⟩
  · rw [hdumpFirst]
  · intro level
    rw [hrenderFirst, Outline.text_dumped]
  · intro level
    rw [hdumpFirst, hrenderSecond, Outline.text_dumped]
  · intro level
    rw [hrenderFirst, hdumpSecond]
  · rw [Outline.ids_dumped, hnodes]
    exact List.map_congr_left fun other _ => ask_keeps Node.slot? (fun _ _ => rfl) store _ other

/-- Node 1 would answer differently after node 2, but is asked first both times. -/
theorem displays_of_mutualPair :
    ∃ store shown, Reachable store ∧ 0 < store.nodes.size ∧ store.ChildTree 0 ∧
      (store.ask [2]).compoundNow 1 ≠ store.compoundNow 1 ∧ (dump 0 store).1 = shown ∧
      (render 0 0 (dump 0 store).2).1 = shown.text 0 ∧ (dump 0 (render 3 0 store).2).1 = shown ∧
      shown.ids = [some 0, some 1, some 2] := by
  have hordinary : OrdinarilyReachable (empty.run mutualPair) :=
    reaches_run .refl mutualPair (by decide +kernel)
  have hreachable : Reachable (empty.run mutualPair) :=
    reaches_run .refl mutualPair (by decide +kernel)
  have hmembership : ((empty.run mutualPair).node 0).membership = some ⟨0, 0⟩ := by decide +kernel
  have hchanges : ((empty.run mutualPair).ask [2]).compoundNow 1 ≠
      (empty.run mutualPair).compoundNow 1 := by
    decide +kernel
  have hsubtree : (empty.run mutualPair).subtree 0 = [0, 1, 2] := by decide +kernel
  have hslots : [0, 1, 2].map (fun id => ((empty.run mutualPair).node id).slot?) =
      [some 0, some 1, some 2] := by
    decide +kernel
  generalize empty.run mutualPair = store at *
  have htree : store.ChildTree 0 := hordinary.strict.childTree hmembership
  have hid : 0 < store.nodes.size := lt_size_of_membership hmembership
  obtain ⟨shown, hdump, -, hrender, hdumpAgain, hids⟩ := displays_of_reachable hreachable hid htree
  rw [hsubtree, hslots] at hids
  exact ⟨store, shown, hreachable, hid, htree, hchanges, hdump, hrender 0, hdumpAgain 3, hids⟩

end Store

end RiskScan

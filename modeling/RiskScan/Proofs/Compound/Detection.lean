import RiskScan.AnalysisResult
import RiskScan.Proofs.Compound.Criticality
import RiskScan.Proofs.Store.LeafPaths
import RiskScan.Store.Dump
import RiskScan.Store.Render
/-!
# What detection found, and what is shown of it

Between two changes a store is only asked: by a search for critical paths, by a dump, by a rendering
or by a single question. Each of these asks some nodes, in an order of its own, and leaves the store
as it is but for the answers that are remembered. Answers may depend on what was asked before, but
none of them turns critical or ceases to be, and so a dump or a rendering agrees with the paths that
were found.
-/

namespace RiskScan

/-- What can be done with a store without changing what it holds. -/
inductive Inquiry where
  | compound (id : NodeId)
  | dump (id : NodeId)
  | render (level : Int) (id : NodeId)
  | detect (floor : Float) (root : NodeId)

/-- The store after an inquiry, whose answer is left aside. -/
def Inquiry.after (store : Store) : Inquiry → Store
  | .compound id => (Store.compound id store).2
  | .dump id => (Store.dump id store).2
  | .render level id => (Store.render level id store).2
  | .detect floor root => (Store.criticalPaths floor root store).2

namespace Store

variable {store : Store} {tree : TreeId} {id : NodeId} {α β : Type}

def inquire (store : Store) (inquiries : List Inquiry) : Store :=
  inquiries.foldl Inquiry.after store

/-- A computation asks some nodes and comes to a result of some kind, whatever has been asked
before. -/
def Reads (store : Store) (computation : StateM Store α) (P : α → Prop) : Prop :=
  ∀ before, ∃ asked result,
    computation (store.ask before) = (result, store.ask (before ++ asked)) ∧ P result

/-- A severity that tells as much as the present answer of a node does about whether it is
critical. -/
def TellsOf (store : Store) (id : NodeId) (severity : Severity) : Prop :=
  severity = .critical ↔ store.compoundNow id = .critical

/-- A dump shows each node with a severity that tells whether it is critical. -/
inductive DumpsTo (store : Store) : Outline → Dump → Prop where
  | node {id : NodeId} {severity : Severity} {outlines : List Outline} {dumps : List Dump}
      (tells : store.TellsOf id severity) (children : List.Forall₂ (DumpsTo store) outlines dumps) :
      DumpsTo store (.node id outlines) (.node (store.dumpFields id severity) dumps)

mutual

/-- A rendering shows each node with a severity that tells whether it is critical. -/
inductive RendersTo (store : Store) : Int → Outline → String → Prop where
  | node {level : Int} {id : NodeId} {severity : Severity} {outlines : List Outline} {text : String}
      (tells : store.TellsOf id severity)
      (children : RendersAllTo store (level + 1) outlines text) :
      RendersTo store level (.node id outlines) ((store.node id).lines level severity ++ text)

inductive RendersAllTo (store : Store) : Int → List Outline → String → Prop where
  | nil {level : Int} : RendersAllTo store level [] ""
  | cons {level : Int} {outline : Outline} {outlines : List Outline} {text others : String}
      (first : RendersTo store level outline text)
      (rest : RendersAllTo store level outlines others) :
      RendersAllTo store level (outline :: outlines) (text ++ others)

end

theorem Reaches.ask {allowed : Operation → Bool} {start : Store}
    (hreaches : Reaches allowed start store) (hallowed : ∀ id, allowed (.compound id))
    (ids : List NodeId) :
    Reaches allowed start (store.ask ids) := by
  induction ids generalizing store with
  | nil => exact hreaches
  | cons id ids ih =>
    rw [ask_cons]
    by_cases hid : id < store.nodes.size
    · exact ih (hreaches.step (hallowed id) (decide_eq_true hid))
    · -- a node that there is not answers, but nothing is remembered
      have hdetached : (store.node id).membership = none := by
        rw [node_of_size_le (Nat.le_of_not_lt hid)]
        rfl
      rw [remember_of_detached _ hdetached]
      exact ih hreaches

theorem treeCount_ask (store : Store) (ids : List NodeId) :
    (store.ask ids).trees.size = store.trees.size := by
  induction ids generalizing store with
  | nil => rfl
  | cons id ids ih => rw [ask_cons, ih, treeCount_remember]

theorem outline_ask (store : Store) (ids : List NodeId) (id : NodeId) :
    (store.ask ids).outline id = store.outline id := by
  rw [outline, outline, outlineWithin_ask, size_ask]

theorem dumpFields_ask (store : Store) (ids : List NodeId) (id : NodeId) (severity : Severity) :
    (store.ask ids).dumpFields id severity = store.dumpFields id severity := by
  have hkept := ask_keeps (fun node => { node with memo := none }) (fun _ _ => rfl) store ids id
  simp only [Node.mk.injEq] at hkept
  simp only [dumpFields, Node.slot?, hkept]

namespace Reads

variable {computation : StateM Store α} {next : α → StateM Store β} {P : α → Prop} {Q : β → Prop}

theorem pure {result : α} (h : P result) : Reads store (pure result) P := by
  intro before
  refine ⟨[], result, ?_, h⟩
  rw [List.append_nil]
  rfl

theorem bind (hcomputation : Reads store computation P)
    (hnext : ∀ result, P result → Reads store (next result) Q) :
    Reads store (computation >>= next) Q := by
  intro before
  obtain ⟨asked, result, hfirst, hP⟩ := hcomputation before
  obtain ⟨more, final, hsecond, hQ⟩ := hnext result hP (before ++ asked)
  rw [List.append_assoc] at hsecond
  refine ⟨asked ++ more, final, ?_, hQ⟩
  rw [← hsecond]
  change next (computation (store.ask before)).1 (computation (store.ask before)).2 = _
  rw [hfirst]

theorem get : Reads store get fun later => ∃ ids, later = store.ask ids := by
  intro before
  refine ⟨[], store.ask before, ?_, before, rfl⟩
  rw [List.append_nil]
  rfl

theorem exists_ask (h : Reads store computation P) (before : List NodeId) :
    ∃ ids, (computation (store.ask before)).2 = store.ask ids := by
  obtain ⟨asked, result, heq, -⟩ := h before
  exact ⟨before ++ asked, by rw [heq]⟩

theorem result (h : Reads store computation P) (before : List NodeId) :
    P (computation (store.ask before)).1 := by
  obtain ⟨asked, result, heq, hP⟩ := h before
  rw [heq]
  exact hP

section

variable (hsound : ArenaSound store) (hbounded : MemosBounded store)

include hsound hbounded

theorem compound (id : NodeId) : Reads store (Store.compound id) (store.TellsOf id) := by
  intro before
  refine ⟨[id], (store.ask before).compoundNow id, ?_, ?_⟩
  · rw [ask_append]
    rfl
  · exact compoundNow_ask_eq_critical_iff hsound hbounded before id

/-! ### Detection -/

theorem isCriticalNode (floor : Float) (id : NodeId) :
    Reads store (Store.isCriticalNode floor id) (· = decide (store.Critical floor id)) := by
  refine (compound hsound hbounded id).bind fun severity htells => ?_
  refine get.bind fun later hlater => ?_
  obtain ⟨ids, rfl⟩ := hlater
  refine pure ?_
  rw [ask_keeps Node.confidence (fun _ _ => rfl)]
  exact decide_eq_decide.mpr (and_congr_left' htells)

theorem isCriticalPath (floor : Float) (path : List NodeId) :
    Reads store (Store.isCriticalPath floor path)
      (· = decide (∃ id ∈ path, store.Critical floor id)) := by
  induction path with
  | nil => exact pure (by simp)
  | cons id path ih =>
    refine (isCriticalNode hsound hbounded floor id).bind fun critical hcritical => ?_
    cases critical with
    | true =>
      have hid := of_decide_eq_true hcritical.symm
      exact pure (by simp [hid])
    | false =>
      have hid := of_decide_eq_false hcritical.symm
      simpa [hid] using ih

theorem criticalAmong (floor : Float) (paths : List (List NodeId)) :
    Reads store (Store.criticalAmong floor paths)
      (· = paths.filter fun path => ∃ id ∈ path, store.Critical floor id) := by
  induction paths with
  | nil => exact pure rfl
  | cons path paths ih =>
    refine (isCriticalPath hsound hbounded floor path).bind fun critical hcritical => ?_
    refine ih.bind fun others hothers => pure ?_
    rw [hcritical, hothers, List.filter_cons]

theorem criticalPaths (floor : Float) (root : NodeId) :
    Reads store (Store.criticalPaths floor root)
      (· = (store.paths root).filter fun path => ∃ id ∈ path, store.Critical floor id) := by
  refine get.bind fun later hlater => ?_
  obtain ⟨ids, rfl⟩ := hlater
  rw [paths_ask]
  exact criticalAmong hsound hbounded floor _

end

/-! ### Dumping and rendering -/

mutual

theorem dumpOutline (hcompound : ∀ id, Reads store (Store.compound id) (store.TellsOf id)) :
    (outline : Outline) → Reads store outline.dump (store.DumpsTo outline)
  | .node id outlines => by
    rw [Outline.dump]
    refine (hcompound id).bind fun severity htells => ?_
    refine get.bind fun later hlater => ?_
    obtain ⟨ids, rfl⟩ := hlater
    refine (dumpOutlines hcompound outlines).bind fun dumps hdumps => pure ?_
    rw [dumpFields_ask]
    exact .node htells hdumps

theorem dumpOutlines (hcompound : ∀ id, Reads store (Store.compound id) (store.TellsOf id)) :
    (outlines : List Outline) →
      Reads store (Outline.dumpAll outlines) (List.Forall₂ store.DumpsTo outlines)
  | [] => by
    rw [Outline.dumpAll]
    exact pure .nil
  | outline :: outlines => by
    rw [Outline.dumpAll]
    refine (dumpOutline hcompound outline).bind fun dump hdump => ?_
    exact (dumpOutlines hcompound outlines).bind fun dumps hdumps => pure (.cons hdump hdumps)

end

theorem dump (hcompound : ∀ id, Reads store (Store.compound id) (store.TellsOf id)) (id : NodeId) :
    Reads store (Store.dump id) (store.DumpsTo (store.outline id)) := by
  refine get.bind fun later hlater => ?_
  obtain ⟨ids, rfl⟩ := hlater
  rw [outline_ask]
  exact dumpOutline hcompound _

mutual

theorem renderOutline (hcompound : ∀ id, Reads store (Store.compound id) (store.TellsOf id))
    (level : Int) :
    (outline : Outline) → Reads store (outline.render level) (RendersTo store level outline)
  | .node id outlines => by
    rw [Outline.render]
    refine (hcompound id).bind fun severity htells => ?_
    refine get.bind fun later hlater => ?_
    obtain ⟨ids, rfl⟩ := hlater
    refine (renderOutlines hcompound (level + 1) outlines).bind fun text htext => pure ?_
    rw [ask_keeps (fun node => node.lines level severity) (fun _ _ => rfl)]
    exact .node htells htext

theorem renderOutlines (hcompound : ∀ id, Reads store (Store.compound id) (store.TellsOf id))
    (level : Int) : (outlines : List Outline) →
      Reads store (Outline.renderAll level outlines) (RendersAllTo store level outlines)
  | [] => by
    rw [Outline.renderAll]
    exact pure .nil
  | outline :: outlines => by
    rw [Outline.renderAll]
    refine (renderOutline hcompound level outline).bind fun text htext => ?_
    exact (renderOutlines hcompound level outlines).bind fun others hothers =>
      pure (.cons htext hothers)

end

theorem render (hcompound : ∀ id, Reads store (Store.compound id) (store.TellsOf id)) (level : Int)
    (id : NodeId) : Reads store (Store.render level id)
    (RendersTo store level (store.outline id)) := by
  refine get.bind fun later hlater => ?_
  obtain ⟨ids, rfl⟩ := hlater
  rw [outline_ask]
  exact renderOutline hcompound level _

end Reads

/-! ### Asking again -/

section

variable (hsound : ArenaSound store) (hbounded : MemosBounded store)

include hsound hbounded

theorem exists_ask_of_inquiry (inquiry : Inquiry) (before : List NodeId) :
    ∃ ids, inquiry.after (store.ask before) = store.ask ids := by
  have hcompound := Reads.compound hsound hbounded
  cases inquiry with
  | compound id => exact (hcompound id).exists_ask before
  | dump id => exact (Reads.dump hcompound id).exists_ask before
  | render level id => exact (Reads.render hcompound level id).exists_ask before
  | detect floor root => exact (Reads.criticalPaths hsound hbounded floor root).exists_ask before

theorem exists_ask_of_inquire (inquiries : List Inquiry) (before : List NodeId) :
    ∃ ids, (store.ask before).inquire inquiries = store.ask ids := by
  induction inquiries generalizing before with
  | nil => exact ⟨before, rfl⟩
  | cons inquiry inquiries ih =>
    obtain ⟨ids, hids⟩ := exists_ask_of_inquiry hsound hbounded inquiry before
    rw [inquire, List.foldl_cons, hids]
    exact ih ids

theorem criticalPaths_eq (floor : Float) (root : NodeId) :
    (criticalPaths floor root store).1 =
      (store.paths root).filter fun path => ∃ id ∈ path, store.Critical floor id :=
  (Reads.criticalPaths hsound hbounded floor root).result []

theorem criticalPaths_ask (floor : Float) (root : NodeId) (ids : List NodeId) :
    (criticalPaths floor root (store.ask ids)).1 = (criticalPaths floor root store).1 := by
  rw [criticalPaths_eq hsound hbounded]
  exact (Reads.criticalPaths hsound hbounded floor root).result ids

end

theorem mem_criticalPaths_iff (hstrict : Strict store) (hbounded : MemosBounded store)
    (htree : tree < store.trees.size) (floor : Float) {path : List NodeId} :
    path ∈ (criticalPaths floor (store.tree tree).root store).1 ↔
      LeafPath store (store.tree tree).root path ∧ ∃ id ∈ path, store.Critical floor id := by
  obtain ⟨place, hplace⟩ := hstrict.root htree
  rw [criticalPaths_eq hstrict.sound hbounded, List.mem_filter, decide_eq_true_iff,
    hstrict.mem_paths_iff hplace]

/-- Every node of a tree lies on a path, so no critical one is missed. -/
theorem criticalPaths_eq_nil_iff (hstrict : Strict store) (hbounded : MemosBounded store)
    (htree : tree < store.trees.size) (floor : Float) :
    (criticalPaths floor (store.tree tree).root store).1 = [] ↔
      ∀ id ∈ (store.tree tree).nodes.toList, ¬ store.Critical floor id := by
  rw [List.eq_nil_iff_forall_not_mem]
  simp only [mem_criticalPaths_iff hstrict hbounded htree, ← hstrict.mem_leafPath_root_iff htree]
  constructor
  · rintro hnone id ⟨path, hpath, hmem⟩ hcritical
    exact hnone path ⟨hpath, id, hmem, hcritical⟩
  · rintro hnone path ⟨hpath, id, hmem, hcritical⟩
    exact hnone id ⟨path, hpath, hmem⟩ hcritical

theorem exitCode_eq_zero_iff (result : AnalysisResult) :
    result.exitCode = 0 ↔ result.criticalPaths = [] := by
  rw [AnalysisResult.exitCode, AnalysisResult.success, ← List.isEmpty_iff]
  cases result.criticalPaths.isEmpty <;> simp

/-- After a search for critical paths, and after any inquiries that follow it, the paths that were
found are those from the root to a leaf on which some node is critical. None were found exactly if
no node of the tree is. The same paths are found again, and every dump and every rendering tells the
same about each node. -/
theorem detection_of_ordinarilyReachable (hreachable : OrdinarilyReachable store)
    (htree : tree < store.trees.size) (floor : Float) (inquiries : List Inquiry) :
    let root := (store.tree tree).root
    let paths := (criticalPaths floor root store).1
    let later := (criticalPaths floor root store).2.inquire inquiries
    (∀ path, path ∈ paths ↔ LeafPath later root path ∧ ∃ id ∈ path, later.Critical floor id) ∧
    (paths = [] ↔ ∀ id ∈ (later.tree tree).nodes.toList, ¬ later.Critical floor id) ∧
    (∀ result : AnalysisResult, result.criticalPaths = paths →
      (result.exitCode = 0 ↔ ∀ id ∈ (later.tree tree).nodes.toList, ¬ later.Critical floor id)) ∧
    (criticalPaths floor root later).1 = paths ∧
    (∀ id, later.DumpsTo (later.outline id) (dump id later).1 ∧
      ∀ level, RendersTo later level (later.outline id) (render level id later).1) := by
  intro root paths later
  have hsound := hreachable.arenaSound
  obtain ⟨ids, hids⟩ :=
    exists_ask_of_inquire hsound hreachable.memosBounded (.detect floor root :: inquiries) []
  change later = store.ask ids at hids
  have hpaths : paths = (criticalPaths floor root (store.ask ids)).1 :=
    (criticalPaths_ask hsound hreachable.memosBounded floor root ids).symm
  have hroot : root = ((store.ask ids).tree tree).root := by rw [tree_ask]
  have hcount : tree < (store.ask ids).trees.size := by rwa [treeCount_ask]
  have hlater : OrdinarilyReachable (store.ask ids) := hreachable.ask (fun _ => rfl) ids
  rw [← hids] at hpaths hroot hcount hlater
  clear_value paths root later
  subst hpaths hroot
  have hstrict := hlater.strict
  have hbounded := hlater.memosBounded
  have hcompound := Reads.compound hstrict.sound hbounded
  have hnil := criticalPaths_eq_nil_iff hstrict hbounded hcount floor
  refine ⟨fun path => mem_criticalPaths_iff hstrict hbounded hcount floor, hnil, ?_, rfl, ?_⟩
  · intro result hresult
    rw [exitCode_eq_zero_iff, hresult, hnil]
  · exact fun id => ⟨(Reads.dump hcompound id).result [],
      fun level => (Reads.render hcompound level id).result []⟩

/-- Nodes 1 and 2 depend on each other. Only node 2 is critical, and it is held with confidence. -/
def surePair : List Operation :=
  [.create { kind := "A", description := "" },
    .create { kind := "B", description := "", severity := .text "low", confidence := .float 0.9 },
    .create { kind := "C", description := "", severity := .text "high", confidence := .float 0.9 },
    .plant 0, .addChild 0 2, .addChild 0 1, .addDependency 1 2, .addDependency 2 1]

/-- Node 1 answers in one way before the search, and in another way after it. -/
theorem detection_of_surePair :
    ∃ store, OrdinarilyReachable store ∧ store.compoundNow 1 = .medium ∧
      (criticalPaths defaultConfidenceFloor 0 store).1 = [[0, 2]] ∧
      let later := (criticalPaths defaultConfidenceFloor 0 store).2.inquire
        [.compound 1, .dump 0, .detect 0.5 0, .render 0 2]
      later.compoundNow 1 = .high ∧ (∃ id ∈ [0, 2], later.Critical defaultConfidenceFloor id) ∧
        (criticalPaths defaultConfidenceFloor 0 later).1 = [[0, 2]] := by
  have hreachable : OrdinarilyReachable (empty.run surePair) :=
    reaches_run .refl surePair (by decide +kernel)
  have hcount : 0 < (empty.run surePair).trees.size := by decide +kernel
  have hroot : ((empty.run surePair).tree 0).root = 0 := by decide +kernel
  have hbefore : (empty.run surePair).compoundNow 1 = .medium := by decide +kernel
  have hpaths : (criticalPaths defaultConfidenceFloor 0 (empty.run surePair)).1 = [[0, 2]] := by
    decide +kernel
  have hafter : ((criticalPaths defaultConfidenceFloor 0 (empty.run surePair)).2.inquire
      [.compound 1, .dump 0, .detect 0.5 0, .render 0 2]).compoundNow 1 = .high := by decide +kernel
  generalize empty.run surePair = store at *
  have hdetection := detection_of_ordinarilyReachable hreachable hcount defaultConfidenceFloor
    [.compound 1, .dump 0, .detect 0.5 0, .render 0 2]
  simp only [hroot] at hdetection
  obtain ⟨hmem, -, -, hagain, -⟩ := hdetection
  have hfound : [0, 2] ∈ (criticalPaths defaultConfidenceFloor 0 store).1 := by
    rw [hpaths]
    exact List.mem_singleton_self _
  exact ⟨store, hreachable, hbefore, hpaths, hafter, ((hmem _).mp hfound).2, hagain.trans hpaths⟩

end Store

end RiskScan

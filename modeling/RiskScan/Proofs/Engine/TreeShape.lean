import RiskScan.Proofs.Engine.Findings
import RiskScan.Proofs.Engine.Sprigs
import RiskScan.Proofs.Store.Kinds
/-!
# The tree of a run

A trunk is planted in its shape, and analyzers that go on in orderly steps keep it, even where they
fail. So the tree of every run has the same few levels, and dependencies lead from the lowest one to
the one above it and no further. That is why its nodes are settled: detection, dumps and renderings
show them in the same way, in whatever order they come.
-/

namespace RiskScan

open Store Relation

namespace Engine

variable {trunk : Trunk} {branches : Branches} {config : Config} {store start : Store}
    {id target : NodeId}
  {slot : Nat}

/-! ### What the shape tells of nodes -/

namespace Trunk.Shaped

variable (h : trunk.Shaped store) (hstands : trunk.Stands store)

include h hstands

/-- Every node of the tree is on one of four levels. -/
theorem level (hid : (store.node id).membership = some ⟨trunk.tree, slot⟩) :
    id = trunk.branches.root ∨ trunk.Bearer store id ∨
      ∃ finding, trunk.Finding store finding ∧ store.Owns finding id := by
  have hbelow := hstands.reachable.strict.below_root hid
  rw [hstands.root] at hbelow
  clear hid
  -- The induction goes down from the root, and what is below one level is on the next one.
  induction hbelow with
  | refl => exact Or.inl rfl
  | @tail owner child _ howns ih =>
    rcases ih with rfl | (⟨branch, rfl⟩ | hfinding) | ⟨finding, hfinding, howner⟩
    · rw [Owns, h.branches] at howns
      obtain ⟨branch, -, rfl⟩ := List.mem_map.mp howns
      exact Or.inr (Or.inl (Or.inl ⟨branch, rfl⟩))
    · exact Or.inr (Or.inl (Or.inr ⟨branch, howns⟩))
    · exact Or.inr (Or.inr ⟨owner, hfinding, howns⟩)
    · rw [Owns, h.leaf hfinding howner] at howns
      cases howns

/-- Neither the root nor the branches nor the findings depend on anything. -/
theorem dependencies_of_level (hid : id = trunk.branches.root ∨ trunk.Bearer store id) :
    (store.node id).dependencies = [] := by
  obtain ⟨slot, hslot⟩ : ∃ slot, (store.node id).membership = some ⟨trunk.tree, slot⟩ := by
    rcases hid with rfl | hbearer
    · exact ⟨0, h.root⟩
    · exact hstands.attached_of_bearer hbearer
  refine List.eq_nil_iff_forall_not_mem.mpr fun target htarget => ?_
  obtain ⟨finding, hfinding, howns, -⟩ := h.dependency hslot htarget
  rcases hid with rfl | hbearer
  · exact hstands.not_owns_root howns
  · exact h.not_bearer_of_owns hstands hfinding howns hbearer

/-- What a node depends on is the finding that it belongs to. -/
theorem finding_of_dependsOn (hid : (store.node id).membership = some ⟨trunk.tree, slot⟩)
    (hdepends : store.DependsOn id target) : trunk.Finding store target ∧ store.Owns target id := by
  have hsound := hstands.reachable.arenaSound
  obtain ⟨place, hplace, htarget⟩ := (hsound.dependsOn_iff hid).mp hdepends
  obtain ⟨finding, hfinding, howns, hmembership⟩ := h.dependency hid hplace
  have hsame : finding = target :=
    Option.some.inj
      ((hsound.mem_of_membership hmembership).symm.trans (hsound.mem_of_membership htarget))
  exact hsame ▸ ⟨hfinding, howns⟩

theorem settled (hid : (store.node id).membership = some ⟨trunk.tree, slot⟩) :
    store.Settled id := by
  have hsound := hstands.reachable.arenaSound
  have hshallow : store.Shallow id := by
    intro target hdepends
    obtain ⟨hfinding, -⟩ := h.finding_of_dependsOn hstands hid hdepends
    obtain ⟨place, hplace⟩ := hstands.attached hfinding
    rw [hsound.dependenciesOf_eq hplace, h.dependencies_of_level hstands (Or.inr (Or.inr hfinding)),
      List.map_nil]
  exact hshallow.settled hsound hstands.reachable.memosExact

/-- What is shown of a node of the tree does not depend on what has been asked. -/
theorem shown_ask (hid : (store.node id).membership = some ⟨trunk.tree, slot⟩) (ids : List NodeId) :
    (dump id (store.ask ids)).1 = (dump id store).1 ∧
      ∀ level, (render level id (store.ask ids)).1 = (render level id store).1 := by
  have hsettled : ∀ id, (∃ slot, (store.node id).membership = some ⟨trunk.tree, slot⟩) →
      store.Settled id := by
    rintro id ⟨slot, hslot⟩
    exact h.settled hstands hslot
  have hclosed : ∀ id, (∃ slot, (store.node id).membership = some ⟨trunk.tree, slot⟩) →
      ∀ child ∈ (store.node id).children, ∃ slot, (store.node child).membership =
        some ⟨trunk.tree, slot⟩ := by
    rintro id ⟨slot, hslot⟩ child hchild
    obtain ⟨place, -, hplace, -⟩ := hstands.reachable.strict.child_of_attached hchild hslot
    exact ⟨place, hplace⟩
  have hshown := shown_ask_of_settled hsettled hclosed ⟨slot, hid⟩
  exact ⟨(hshown ids).1.trans (hshown []).1.symm,
    fun level => ((hshown ids).2 level).trans ((hshown []).2 level).symm⟩

end Trunk.Shaped

/-! ### Planting -/

theorem Bears.shaped
    (h : Bears start rootNode branches.all (Branch.all.map (branchNode config)) store)
    (hstart : OrdinarilyReachable start) (hroot : branches.root = start.nodes.size) :
    (⟨start.trees.size, branches⟩ : Trunk).Shaped store := by
  obtain ⟨-, hbare⟩ := h.stands hstart hroot
  constructor
  · rw [hroot, h.root]
  · rw [hroot, h.children]
  · exact fun hid => (h.branch hid).1
  · rintro finding child ⟨branch, howns⟩
    rw [Owns, hbare] at howns
    cases howns
  · intro id place slot hid hslot
    have hmark := getElem?_marks store start.trees.size place
    rw [(hstart.trans h.proceeds).arenaSound.nodeIn? hid, h.marks, Option.map_some] at hmark
    have hnone := dependencies_of_mem_trunkMarks (List.mem_of_getElem? hmark)
    rw [show (store.node id).dependencies = [] from hnone] at hslot
    cases hslot

theorem Bears.kind_branch
    (h : Bears start rootNode branches.all (Branch.all.map (branchNode config)) store)
    (branch : Branch) : (store.node (branches.get branch)).kind = branch.label := by
  have hplace : branches.all[Branch.all.idxOf branch]? = some (branches.get branch) := by
    cases branch <;> rfl
  have hkind := h.kind hplace
  have hlabel : (Branch.all.map (branchNode config))[Branch.all.idxOf branch]?.map Node.kind =
      some branch.label := by
    cases branch <;> rfl
  exact Option.some.inj (hkind.symm.trans hlabel)

/-! ### Runs -/

variable {engine : Engine} {files : List SourceFile}

/-- The trunk stands in its shape after all files, whatever has failed. -/
theorem exists_shaped_of_run
    (hregistry : ∀ analyzer ∈ engine.registry, analyzer.Declared ∨ analyzer.Orderly)
    (hstart : OrdinarilyReachable start) (files : List SourceFile) :
    ∃ trunk planted, buildTree engine.config start = .ok trunk planted ∧
      let analyzed := (analyzeSources engine.analyzers trunk.branches files planted).2
      trunk.Stands analyzed ∧ trunk.Shaped analyzed ∧
        ∀ branch, (analyzed.node (trunk.branches.get branch)).kind = branch.label := by
  have horderly : ∀ analyzer ∈ engine.analyzers, analyzer.Orderly := fun analyzer hmem =>
    (hregistry analyzer (List.mem_filter.mp hmem).1).elim (fun h => h.scripted.orderly) fun h => h
  obtain ⟨branches, planted, hbuild, hroot, hbears⟩ := exists_bears engine.config hstart
  obtain ⟨hstands, -⟩ := hbears.stands hstart hroot
  have hsteps := steps_analyzeSources horderly files hstands
  have hproceeds := hsteps.proceeds hstands
  refine ⟨_, planted, hbuild, hstands.proceeds hproceeds,
    hsteps.shaped hstands (hbears.shaped hstart hroot), ?_⟩
  intro branch
  rw [hproceeds.kind hstands.reachable.arenaSound (hstands.branch_lt branch), hbears.kind_branch]

/-- Let every analyzer be made of checks, whether or not something interrupts it, or go on in
orderly steps. Then a run fails only if the files cannot be scanned, or if the console refuses the
warning of a file whose analysis fails. Otherwise its tree has the root in slot 0 and exactly the
four branches under it, in the next slots and each of its kind; findings under the branches,
children under the findings, and nothing below. What a node depends on is always the finding that it
belongs to, and neither root nor branches nor findings depend on anything. So when all files have
been analysed, every node answers, dumps and renders in one way only and the same critical paths are
found, however often and in whatever order all this is asked for. -/
theorem shape_of_run
    (hregistry : ∀ analyzer ∈ engine.registry, analyzer.Declared ∨ analyzer.Orderly)
    (hstart : OrdinarilyReachable start) (fs : FileSystem) (milliseconds : Int) :
    match engine.sources fs with
    | .error fault => ∃ files, engine.run fs milliseconds start =
        .error ((engine.warningsOn files start).refusal?.getD fault)
    | .ok files =>
      (∀ fault, (engine.warningsOn files start).refusal? = some fault →
        engine.run fs milliseconds start = .error fault) ∧
      ((engine.warningsOn files start).refusal? = none →
      ∃ run final scan planted outcomes analyzed,
      engine.run fs milliseconds start = .ok (run, final) ∧
      engine.plant start = .ok (run.trunk, planted) ∧
      (engine.config.scope engine.project).scan fs = .ok scan ∧
      engine.analyzeFiles fs run.trunk.branches scan.files planted = .ok (outcomes, analyzed) ∧
      let floor := engine.config.confidenceFloor
      let root := run.trunk.branches.root
      let nodes := (final.tree run.trunk.tree).nodes
      let IsBranch id := ∃ branch, id = run.trunk.branches.get branch
      let IsFinding id := ∃ branch, id ∈ (final.node (run.trunk.branches.get branch)).children
      final = analyzed.inquire [.detect floor root] ∧
      nodes[0]? = some root ∧
      (final.node root).children = Branch.all.map run.trunk.branches.get ∧
      (∀ place branch, Branch.all[place]? = some branch →
        nodes[place + 1]? = some (run.trunk.branches.get branch) ∧
          (final.node (run.trunk.branches.get branch)).kind = branch.label) ∧
      (∀ id ∈ nodes, id = root ∨ IsBranch id ∨ IsFinding id ∨
        ∃ finding, IsFinding finding ∧ id ∈ (final.node finding).children) ∧
      (∀ finding, IsFinding finding →
        ∀ child ∈ (final.node finding).children, (final.node child).children = []) ∧
      (∀ id ∈ nodes, ∀ target, final.DependsOn id target →
        IsFinding target ∧ id ∈ (final.node target).children) ∧
      (∀ id, id = root ∨ IsBranch id ∨ IsFinding id → (final.node id).dependencies = []) ∧
      ∀ inquiries,
        let later := analyzed.inquire inquiries
        (∀ id ∈ nodes, later.compoundNow id = analyzed.compoundNow id ∧
          (dump id later).1 = (dump id analyzed).1 ∧
          ∀ level, (render level id later).1 = (render level id analyzed).1) ∧
        (criticalPaths floor root later).1 = run.result.criticalPaths) := by
  cases hsources : engine.sources fs with
  | error fault =>
    obtain ⟨trunk, planted, hplant, -⟩ := exists_shaped_of_run hregistry hstart []
    exact run_of_error hplant hsources milliseconds
  | ok files =>
    obtain ⟨trunk, planted, hplant, hstands, hshaped, hkind⟩ :=
      exists_shaped_of_run hregistry hstart files
    refine ⟨fun fault hrefused => run_of_refused hplant hsources hrefused milliseconds,
      fun haccepted => ?_⟩
    obtain ⟨scan, hscan, hread⟩ := exists_scan_of_sources hsources
    rw [warningsOn_of_planted hplant] at haccepted
    obtain ⟨outcomes, houtcomes, -⟩ := analyzeFiles_of_ok hread haccepted
    set analyzed := (analyzeSources engine.analyzers trunk.branches files planted).2
    have hsound := hstands.reachable.arenaSound
    have hbounded := hstands.reachable.memosBounded
    obtain ⟨asked, hasked⟩ := exists_ask_of_inquire hsound hbounded
      [.detect engine.config.confidenceFloor trunk.branches.root] []
    change (criticalPaths engine.config.confidenceFloor trunk.branches.root analyzed).2 =
      analyzed.ask asked at hasked
    have hrun := run_of_analyzed hplant hscan houtcomes milliseconds
    simp only [hasked] at hrun
    have hsteps := Trunk.Steps.ask trunk analyzed asked
    have hlater := hsteps.shaped hstands hshaped
    have hlaterStands := hstands.proceeds (hsteps.proceeds hstands)
    have hmember : ∀ {id}, id ∈ ((analyzed.ask asked).tree trunk.tree).nodes →
        ∃ slot, ((analyzed.ask asked).node id).membership = some ⟨trunk.tree, slot⟩ := fun hid =>
      hlaterStands.reachable.arenaSound.membership_of_mem_toList (Array.mem_toList_iff.mpr hid)
    refine ⟨_, _, scan, planted, outcomes, analyzed, hrun, plant_of_ok hplant, hscan, houtcomes,
      hasked.symm,
      ?_, ?_, ?_, ?_, ?_, ?_, ?_, ?_⟩
    · exact hlaterStands.reachable.arenaSound.mem_of_membership hlater.root
    · exact hlater.branches
    · intro place branch hplace
      have hbranch : trunk.branches.all[place]? = some (trunk.branches.get branch) := by
        rw [Branches.all, List.getElem?_map, hplace, Option.map_some]
      refine ⟨hlaterStands.reachable.arenaSound.mem_of_membership (hlater.branch hbranch), ?_⟩
      rw [ask_keeps Node.kind (fun _ _ => rfl)]
      exact hkind branch
    · intro id hid
      obtain ⟨slot, hslot⟩ := hmember hid
      have hlevel := hlater.level hlaterStands hslot
      rwa [Trunk.Bearer, or_assoc] at hlevel
    · exact fun finding hfinding child hchild => hlater.leaf hfinding hchild
    · intro id hid target hdepends
      obtain ⟨slot, hslot⟩ := hmember hid
      exact hlater.finding_of_dependsOn hlaterStands hslot hdepends
    · exact fun id hid => hlater.dependencies_of_level hlaterStands hid
    · intro inquiries
      obtain ⟨ids, hids⟩ := exists_ask_of_inquire hsound hbounded inquiries []
      change analyzed.inquire inquiries = analyzed.ask ids at hids
      rw [hids]
      refine ⟨fun id hid => ?_, criticalPaths_ask hsound hbounded _ _ ids⟩
      obtain ⟨slot, hslot⟩ := hmember hid
      rw [ask_keeps Node.membership (fun _ _ => rfl)] at hslot
      exact ⟨hshaped.settled hstands hslot ids, hshaped.shown_ask hstands hslot ids⟩

/-- An analyzer fails in the second file, after node 8 has been made to depend on the finding it
belongs to. Its answer stays the same, whatever else is asked. -/
theorem shape_of_chanceFiles : ∃ run final,
    falteringEngine.run chanceFiles 0 Store.empty = .ok (run, final) ∧
    run.result.failedFiles.length = 1 ∧
      final.DependsOn 8 7 ∧ 8 ∈ (final.node 7).children ∧
      ∀ inquiries, (final.inquire inquiries).compoundNow 8 = .critical := by
  have hregistry : ∀ analyzer ∈ falteringEngine.registry, analyzer.Declared ∨ analyzer.Orderly :=
    fun _ hmem => (declared_or_scripted_of_falteringEngine hmem).imp_right fun h => h.orderly
  have hresult : (falteringEngine.run chanceFiles 0 Store.empty).toOption.map (fun done =>
      (done.1.result.failedFiles.length, done.2.dependenciesOf 8, done.2.compoundNow 8)) =
        some (1, [7], .critical) := by
    decide +kernel
  have htree : (falteringEngine.run chanceFiles 0 Store.empty).toOption.map (fun done =>
      decide (8 ∈ (done.2.tree done.1.trunk.tree).nodes)) = some true := by
    decide +kernel
  obtain ⟨done, hrun, hanswers⟩ := Except.exists_of_map_toOption hresult
  obtain ⟨files, hsources, haccepted⟩ := exists_sources_of_run_eq_ok hrun
  have hshape := shape_of_run hregistry .refl chanceFiles 0
  rw [hsources] at hshape
  obtain ⟨run, final, -, -, -, analyzed, hends, -, -, -, hfinal, -, -, -, -, -, hdependency, -,
    hlater⟩ := hshape.2 haccepted
  cases hrun.symm.trans hends
  rw [hrun, Except.toOption, Option.map_some, Option.some.injEq] at htree
  simp only [Prod.mk.injEq] at hanswers
  obtain ⟨hfailed, htargets, hanswer⟩ := hanswers
  have hmem := of_decide_eq_true htree
  have hdepends : final.DependsOn 8 7 := by
    rw [Store.DependsOn, htargets]
    exact List.mem_singleton_self 7
  have hsame := fun inquiries => ((hlater inquiries).1 8 hmem).1
  refine ⟨run, final, hrun, hfailed, hdepends, (hdependency 8 hmem 7 hdepends).2,
    fun inquiries => ?_⟩
  have hnow := hsame [.detect falteringEngine.config.confidenceFloor run.trunk.branches.root]
  rw [← hfinal, hanswer] at hnow
  rw [hfinal, hnow]
  exact hsame (.detect falteringEngine.config.confidenceFloor
    run.trunk.branches.root :: inquiries)

/-- An analyzer that attaches a finding, a child to the finding, and a child to the child. -/
def deepAnalyzer : Analyzer where
  name := "DeepAnalyzer"
  branch := .dataFlow
  checks := []
  analyze _ branches := do
    let note : Node := {
      kind := "NOTE"
      description := "Looked at"
      severity := .low
      evidence := none
      confidence := .one
      reasoning := none }
    let finding ← Analysis.attach branches.dataFlow note
    let child ← Analysis.attach finding note
    let _ ← Analysis.attach child note
    return [finding]

def deepEngine : Engine :=
  ⟨.ofString "/p", {},
    [.codeExecution, .stateManagement, .asyncConcurrency (.eventCascade 10), .dataFlow,
    deepAnalyzer]⟩

def calmFiles : FileSystem where
  top := [("p", .directory [("src", .directory [("a.js", .file [])])])]

/-- The child of a finding has a child of its own. -/
theorem not_shape_of_run_of_deepEngine : ∃ run final,
    deepEngine.run calmFiles 0 Store.empty = .ok (run, final) ∧ run.result.failedFiles = [] ∧
      (final.node run.trunk.branches.dataFlow).children = [5] ∧ (final.node 5).children = [6] ∧
      (final.node 6).children = [7] := by
  have hresult : (deepEngine.run calmFiles 0 Store.empty).toOption.map (fun done =>
      (done.1.result.failedFiles.length, (done.2.node done.1.trunk.branches.dataFlow).children,
        (done.2.node 5).children, (done.2.node 6).children)) = some (0, [5], [6], [7]) := by
    decide +kernel
  cases hrun : deepEngine.run calmFiles 0 Store.empty with
  | error fault =>
    rw [hrun] at hresult
    cases hresult
  | ok done =>
    rw [hrun, Except.toOption, Option.map_some, Option.some.injEq] at hresult
    simp only [Prod.mk.injEq] at hresult
    exact ⟨done.1, done.2, rfl, List.length_eq_zero_iff.mp hresult.1, hresult.2⟩

end Engine

end RiskScan

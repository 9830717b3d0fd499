import RiskScan.Proofs.Compound.Detection
import RiskScan.Proofs.Engine.Checks
import RiskScan.Proofs.Engine.Planting
import RiskScan.Proofs.Engine.Running
import RiskScan.Proofs.Outcome
/-!
# No finding is lost

The findings of a file come from two sources: an analyzer that ends well returns its own, and those
of an analyzer that fails are read off its branch. Either way they are the nodes that were attached
to the branch meanwhile. So the findings of all files together are the children of the four
branches, each of them once.
-/

namespace RiskScan

open Store Engine

/-- An analyzer attaches nodes to its own branch only. Unless it fails, it returns what it has
attached. It may fail at any point. -/
def Analyzer.Confined (analyzer : Analyzer) : Prop :=
  ∀ (trunk : Trunk) (file : SourceFile) (store : Store), trunk.Stands store →
    ∃ found after, Attaches trunk analyzer.branch found store after ∧
      (analyzer.analyze file trunk.branches store = .ok found after ∨
        ∃ fault, analyzer.analyze file trunk.branches store = .error fault after)

theorem Analyzer.Uniform.confined {analyzer : Analyzer} (h : analyzer.Uniform) :
    analyzer.Confined := by
  intro trunk file store hstands
  obtain ⟨growth, hyields⟩ := h file
  obtain ⟨found, after, hgrows, ⟨-, hfault⟩ | ⟨-, a, ha, rfl⟩⟩ := hyields trunk store hstands
  · exact ⟨found, after, hgrows.toAttaches, Or.inr hfault⟩
  · exact ⟨a, after, hgrows.toAttaches, Or.inl ha⟩

/-- What has been added to the branches of a trunk is a list of findings, each with its branch. -/
structure Tallies (trunk : Trunk) (tally : List (Branch × NodeId)) (before after : Store) :
    Prop where
  proceeds : before.Proceeds after
  children (branch : Branch) : (after.node (trunk.branches.get branch)).children =
    (before.node (trunk.branches.get branch)).children ++
      (tally.filter (·.1 = branch)).map Prod.snd

variable {trunk : Trunk} {branch : Branch} {found findings : List NodeId}
    {before after store : Store}
  {tally : List (Branch × NodeId)}

namespace Tallies

theorem refl (store : Store) : Tallies trunk [] store store where
  proceeds := .refl
  children branch := by simp

theorem trans {middle : Store} {more : List (Branch × NodeId)}
    (hleft : Tallies trunk tally before middle) (hright : Tallies trunk more middle after) :
    Tallies trunk (tally ++ more) before after where
  proceeds := hleft.proceeds.trans hright.proceeds
  children branch := by
    rw [hright.children, hleft.children, List.filter_append, List.map_append, List.append_assoc]

theorem of_attaches (h : Attaches trunk branch found before after) :
    Tallies trunk (found.map (branch, ·)) before after where
  proceeds := h.proceeds
  children other := by
    rw [h.children]
    congr 1
    by_cases heq : other = branch
    · subst heq
      simp [List.filter_map, Function.comp_def]
    · simp [List.filter_map, Function.comp_def, heq, Ne.symm heq]

section

variable (h : Tallies trunk tally before after) (hstands : trunk.Stands after)
  (hbare : ∀ branch, (before.node (trunk.branches.get branch)).children = [])

include h hbare

theorem children_of_bare (branch : Branch) : (after.node (trunk.branches.get branch)).children =
    (tally.filter (·.1 = branch)).map Prod.snd := by
  rw [h.children, hbare, List.nil_append]

theorem mem_children {finding : Branch × NodeId} (hfinding : finding ∈ tally) :
    finding.2 ∈ (after.node (trunk.branches.get finding.1)).children := by
  rw [h.children_of_bare hbare]
  exact List.mem_map_of_mem (List.mem_filter.mpr ⟨hfinding, decide_eq_true rfl⟩)

include hstands

/-- No two branches have a child in common, so the children of a branch pick its findings out. -/
theorem filter_findings (branch : Branch) : (tally.map Prod.snd).filter
      (· ∈ (after.node (trunk.branches.get branch)).children) =
    (after.node (trunk.branches.get branch)).children := by
  have hsame : ∀ finding ∈ tally,
      (decide (finding.2 ∈ (after.node (trunk.branches.get branch)).children) =
      decide (finding.1 = branch)) := by
    intro finding hfinding
    have hown := h.mem_children hbare hfinding
    refine decide_eq_decide.mpr ⟨fun hmem => ?_, ?_⟩
    · exact hstands.distinct (hstands.reachable.strict.linked.unique hown hmem)
    · rintro rfl
      exact hown
  rw [List.filter_map]
  conv_rhs => rw [h.children_of_bare hbare]
  exact congrArg _ (List.filter_congr hsame)

theorem nodup_findings : (tally.map Prod.snd).Nodup := by
  rw [List.nodup_iff_count_le_one]
  intro id
  by_cases hmem : id ∈ tally.map Prod.snd
  · obtain ⟨finding, hfinding, rfl⟩ := List.mem_map.mp hmem
    have hown := h.mem_children hbare hfinding
    calc (tally.map Prod.snd).count finding.2
        = ((tally.map Prod.snd).filter
            (· ∈ (after.node (trunk.branches.get finding.1)).children)).count finding.2 := by
          rw [List.count_filter (by simpa using hown)]
      _ = (after.node (trunk.branches.get finding.1)).children.count finding.2 := by
          rw [h.filter_findings hstands hbare]
      _ ≤ 1 := List.nodup_iff_count_le_one.mp (hstands.reachable.strict.linked.nodup _) _
  · rw [List.count_eq_zero_of_not_mem hmem]
    exact Nat.zero_le 1

omit hstands

theorem length_findings : tally.length =
    (Branch.all.map fun branch =>
      (after.node (trunk.branches.get branch)).children.length).sum := by
  have hcount : ∀ tally : List (Branch × NodeId),
      tally.length = (Branch.all.map fun branch => (tally.filter (·.1 = branch)).length).sum := by
    intro tally
    induction tally with
    | nil => rfl
    | cons finding tally ih =>
      obtain ⟨branch, id⟩ := finding
      simp only [Branch.all, List.map_cons, List.map_nil, List.sum_cons, List.sum_nil] at ih ⊢
      cases branch <;> simp <;> omega
  rw [hcount tally]
  congr 1
  refine List.map_congr_left fun branch _ => ?_
  rw [h.children_of_bare hbare, List.length_map]

end

end Tallies

/-! ### From analyzers to runs -/

namespace Engine

/-- The findings of a file are what its analyzers have added to their branches. -/
theorem tallies_runAnalyzers (analyzers : List Analyzer)
    (hconfined : ∀ analyzer ∈ analyzers, analyzer.Confined) (file : SourceFile)
    (findings : List NodeId) (hstands : trunk.Stands store) :
    ∃ tally, Tallies trunk tally store
      (runAnalyzers file trunk.branches analyzers findings store).2 ∧
      (runAnalyzers file trunk.branches analyzers findings store).1.findings =
        findings ++ tally.map Prod.snd := by
  induction analyzers generalizing findings store with
  | nil => exact ⟨[], .refl store, (List.append_nil findings).symm⟩
  | cons analyzer analyzers ih =>
    obtain ⟨found, after, hattaches, hok | ⟨fault, hfault⟩⟩ :=
      hconfined analyzer List.mem_cons_self trunk file store hstands
    · have hrest := ih (fun other hother => hconfined other (List.mem_cons_of_mem _ hother))
        (findings ++ found) (hstands.proceeds hattaches.proceeds)
      obtain ⟨tally, htallies, hfindings⟩ := hrest
      have hrun : runAnalyzers file trunk.branches (analyzer :: analyzers) findings store =
          runAnalyzers file trunk.branches analyzers (findings ++ found) after := by
        simp only [runAnalyzers, hok]
      rw [hrun]
      refine ⟨_, (Tallies.of_attaches hattaches).trans htallies, ?_⟩
      rw [hfindings, List.map_append, List.map_map, List.append_assoc]
      simp [Function.comp_def]
    · have hown := hattaches.children analyzer.branch
      rw [if_pos rfl] at hown
      refine ⟨found.map (analyzer.branch, ·), ?_, ?_⟩
      · simp only [runAnalyzers, hfault]
        exact .of_attaches hattaches
      · simp only [runAnalyzers, hfault, hown, List.drop_left, List.map_map, Function.comp_def,
          List.map_id']

theorem tallies_analyzeSources {analyzers : List Analyzer}
    (hconfined : ∀ analyzer ∈ analyzers, analyzer.Confined) (files : List SourceFile)
    (hstands : trunk.Stands store) :
    ∃ tally, Tallies trunk tally store (analyzeSources analyzers trunk.branches files store).2 ∧
      findingsOf (analyzeSources analyzers trunk.branches files store).1 = tally.map Prod.snd := by
  induction files generalizing store with
  | nil => exact ⟨[], .refl store, rfl⟩
  | cons file files ih =>
    obtain ⟨first, hfirst, hfindings⟩ := tallies_runAnalyzers analyzers hconfined file [] hstands
    obtain ⟨rest, hrest, hothers⟩ := ih (hstands.proceeds hfirst.proceeds)
    refine ⟨first ++ rest, hfirst.trans hrest, ?_⟩
    rw [List.map_append, ← hothers, ← List.nil_append (first.map Prod.snd), ← hfindings]
    rfl

theorem children_criticalPaths (hreachable : OrdinarilyReachable store) (floor : Float)
    (root id : NodeId) :
    ((Store.criticalPaths floor root store).2.node id).children = (store.node id).children := by
  have hreads := Reads.criticalPaths hreachable.arenaSound hreachable.memosBounded floor root
  obtain ⟨ids, hids⟩ := hreads.exists_ask []
  change (Store.criticalPaths floor root store).2 = store.ask ids at hids
  rw [hids, ask_keeps Node.children (fun _ _ => rfl)]

variable {engine : Engine} {start : Store}

/-- A run fails only if the files cannot be scanned, or if the console refuses the warning of a file
whose analysis fails. Otherwise the findings of all files, one after the other, are the children of
the branches: those that belong to a branch are its children, in their order. None is there twice,
each belongs to a branch, and all are counted. -/
theorem findings_of_run
    (hregistry : ∀ analyzer ∈ engine.registry, analyzer.Declared ∨ analyzer.Confined)
    (hstart : OrdinarilyReachable start) (fs : FileSystem) (milliseconds : Int) :
    match engine.sources fs with
    | .error fault => ∃ files, engine.run fs milliseconds start =
        .error ((engine.warningsOn files start).refusal?.getD fault)
    | .ok files =>
      (∀ fault, (engine.warningsOn files start).refusal? = some fault →
        engine.run fs milliseconds start = .error fault) ∧
      ((engine.warningsOn files start).refusal? = none →
        ∃ run final scan planted outcomes analyzed,
        engine.run fs milliseconds start = .ok (run, final) ∧
        engine.plant start = .ok (run.trunk, planted) ∧
        (engine.config.scope engine.project).scan fs = .ok scan ∧
        engine.analyzeFiles fs run.trunk.branches scan.files planted = .ok (outcomes, analyzed) ∧
        let findings := outcomes.flatMap fun outcome => outcome.analysis.findings
        let children branch := (final.node (run.trunk.branches.get branch)).children
        (∀ branch, findings.filter (· ∈ children branch) = children branch) ∧
        findings.Nodup ∧ (∀ finding ∈ findings, ∃ branch, finding ∈ children branch) ∧
        run.result.totalIssues =
          (Branch.all.map fun branch => (children branch).length).sum) := by
  have hconfined : ∀ analyzer ∈ engine.analyzers, analyzer.Confined := fun analyzer hmem =>
    (hregistry analyzer (List.mem_filter.mp hmem).1).elim (fun h => h.uniform.confined) fun h => h
  obtain ⟨trunk, planted, hplant, hstands, hbare, -⟩ := buildTree_eq engine.config hstart
  cases hsources : engine.sources fs with
  | error fault => exact run_of_error hplant hsources milliseconds
  | ok files =>
    refine ⟨fun fault hrefused => run_of_refused hplant hsources hrefused milliseconds,
      fun haccepted => ?_⟩
    obtain ⟨scan, hscan, hread⟩ := exists_scan_of_sources hsources
    rw [warningsOn_of_planted hplant] at haccepted
    obtain ⟨outcomes, houtcomes, hfindings⟩ := analyzeFiles_of_ok hread haccepted
    obtain ⟨tally, htallies, htally⟩ := tallies_analyzeSources hconfined files hstands
    have hafter := hstands.proceeds htallies.proceeds
    have hchildren :=
      fun id => children_criticalPaths hafter.reachable engine.config.confidenceFloor
      trunk.branches.root id
    rw [htally] at hfindings
    refine ⟨_, _, scan, planted, outcomes, _, run_of_analyzed hplant hscan houtcomes milliseconds,
      plant_of_ok hplant, hscan, houtcomes, ?_⟩
    simp only [hchildren, hfindings]
    refine ⟨htallies.filter_findings hafter hbare, htallies.nodup_findings hafter hbare, ?_, ?_⟩
    · intro id hid
      obtain ⟨finding, hfinding, rfl⟩ := List.mem_map.mp hid
      exact ⟨finding.1, htallies.mem_children hbare hfinding⟩
    · rw [← htallies.length_findings hbare]
      simp [resultOf, List.flatMap_map, hfindings]

/-- Two files with chance in their control flow, and asynchronous work in the second one. -/
def chanceFiles : FileSystem where
  top := [("p", .directory [
    ("src", .directory [("a.js", .file ("if (Math.random(".toList.map fun c => c.toNat.toUInt8))]),
    ("scripts", .directory [
      ("b.js", .file ("if (Math.random() await ".toList.map fun c => c.toNat.toUInt8))])])]

/-- The note in the second file is counted although the analyzer fails there. -/
theorem findings_of_chanceFiles : ∃ run final,
    falteringEngine.run chanceFiles 0 Store.empty = .ok (run, final) ∧
      run.result.failedFiles.length = 1 ∧ run.result.totalIssues = 4 ∧
      (Branch.all.map fun branch =>
        (final.node (run.trunk.branches.get branch)).children.length).sum = 4 := by
  have hregistry : ∀ analyzer ∈ falteringEngine.registry, analyzer.Declared ∨ analyzer.Confined :=
    fun _ hmem => (declared_or_uniform_of_falteringEngine hmem).imp_right fun h => h.confined
  have hresult : (falteringEngine.run chanceFiles 0 Store.empty).toOption.map
      (fun done => (done.1.result.failedFiles.length, done.1.result.totalIssues)) =
          some (1, 4) := by
    decide +kernel
  obtain ⟨done, hrun, hcounts⟩ := Except.exists_of_map_toOption hresult
  obtain ⟨files, hsources, haccepted⟩ := exists_sources_of_run_eq_ok hrun
  have hfindings := findings_of_run hregistry .refl chanceFiles 0
  rw [hsources] at hfindings
  obtain ⟨run, final, -, -, -, -, hends, -, -, -, -, -, -, htotal⟩ := hfindings.2 haccepted
  cases hrun.symm.trans hends
  obtain ⟨hfailed, hissues⟩ := Prod.mk.inj hcounts
  rw [hissues] at htotal
  exact ⟨run, final, hrun, hfailed, hissues, (Int.ofNat.inj htotal).symm⟩

end Engine

end RiskScan

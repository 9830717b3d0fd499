import Mathlib.Data.List.Forall2
import RiskScan.Proofs.Engine.Findings
import RiskScan.Proofs.Engine.SprigDumps
import RiskScan.Proofs.Outcome
/-!
# What an analyzer contributes

What an analyzer does in a file is a script, and the sprigs that it leaves there stand until the run
is over. So what it contributes for a file depends neither on the other analyzers nor on the other
files, nor on what any of these do there.
-/

namespace RiskScan

open Store

theorem forall₂_of_common {α β γ : Type} {R : α → γ → Prop} {S : β → γ → Prop}
    {T : α → β → Prop} (h : ∀ a b c, R a c → S b c → T a b) {first : List α} {second : List β}
    {common : List γ} (hfirst : List.Forall₂ R first common)
    (hsecond : List.Forall₂ S second common) :
    List.Forall₂ T first second := by
  induction hfirst generalizing second with
  | nil =>
    cases hsecond
    exact .nil
  | cons hhead _ ih =>
    cases hsecond with
    | cons hother hrest => exact .cons (h _ _ _ hhead hother) (ih hrest)

namespace Engine

/-- What each of some analyzers finds in a file, one after the other up to the one that fails. -/
def contributions (file : SourceFile) (branches : Branches) :
    List Analyzer → Store → List (Analyzer × List NodeId)
  | [], _ => []
  | analyzer :: analyzers, store =>
    match analyzer.analyze file branches store with
    | .ok found after => (analyzer, found) :: contributions file branches analyzers after
    | .error _ _ => []

/-- A run that has come to its end, and one of the files that it has read and analysed on the
way. -/
structure Visit where
  engine : Engine
  fs : FileSystem
  start : Store
  reachable : OrdinarilyReachable start
  milliseconds : Int
  run : Run
  final : Store
  runs : engine.run fs milliseconds start = .ok (run, final)
  planted : Store
  plants : engine.plant start = .ok (run.trunk, planted)
  scan : Scan
  scans : (engine.config.scope engine.project).scan fs = .ok scan
  earlier : List Path
  path : Path
  later : List Path
  files : scan.files = earlier ++ path :: later
  content : String
  reads : fs.readSource path = .ok (.ok content)
  before : List FileOutcome
  reached : Store
  reaches : engine.analyzeFiles fs run.trunk.branches earlier planted = .ok (before, reached)
  outcome : FileOutcome
  left : Store
  analyses : engine.analyzeFile fs run.trunk.branches path reached = .ok (outcome, left)

namespace Visit

def file (visit : Visit) : SourceFile :=
  .ofContent (visit.engine.displayPath visit.path) visit.content

/-- What each analyzer has found in the file, as it is dumped when the run is over. -/
def contributed (visit : Visit) : List (Analyzer × List Dump) :=
  (contributions visit.file visit.run.trunk.branches visit.engine.analyzers
    visit.reached).map fun contribution =>
      (contribution.1, contribution.2.map fun id => (Store.dump id visit.final).1)

end Visit

/-- One analyzer has contributed what is the same but for the ids, finding by finding. -/
def SameContribution (first second : Analyzer × List Dump) : Prop :=
  first.1 = second.1 ∧ List.Forall₂ Dump.Alike first.2 second.2

variable {engine : Engine} {fs : FileSystem} {trunk : Trunk} {branches : Branches}
    {paths : List Path}
  {outcomes : List FileOutcome} {analyzers : List Analyzer} {file : SourceFile}
  {findings : List NodeId}
  {base store after : Store} {script : Analyzer → Script}

theorem contributions_of_ok
    (h : (runAnalyzers file branches analyzers findings store).1.fault = none) :
    (contributions file branches analyzers store).map Prod.fst = analyzers ∧
      (runAnalyzers file branches analyzers findings store).1.findings =
        findings ++ (contributions file branches analyzers store).flatMap Prod.snd := by
  induction analyzers generalizing findings store with
  | nil => simp [contributions, runAnalyzers]
  | cons analyzer analyzers ih =>
    rw [runAnalyzers] at h ⊢
    rw [contributions]
    cases hresult : analyzer.analyze file branches store with
    | error fault after =>
      rw [hresult] at h
      cases h
    | ok found after =>
      rw [hresult] at h
      obtain ⟨hanalyzers, hfindings⟩ := ih h
      simp [hanalyzers, hfindings]

/-- Where scripts are performed without failure, their sprigs stand in the end. -/
theorem holds_contributions (hscript : ∀ analyzer ∈ analyzers, ∀ branches,
      analyzer.analyze file branches = (script analyzer).perform (branches.get analyzer.branch))
    (hstands : trunk.Stands base)
    (h : (runAnalyzers file trunk.branches analyzers findings base).1.fault = none) :
    Tends trunk base (runAnalyzers file trunk.branches analyzers findings base).2 ∧
      List.Forall₂ (fun contribution analyzer => contribution.1 = analyzer ∧
          ∃ sprigs, (script analyzer).sprigs? = some sprigs ∧ List.Forall₂
            (trunk.Holds base (runAnalyzers file trunk.branches analyzers findings base).2)
              contribution.2 sprigs)
        (contributions file trunk.branches analyzers base) analyzers := by
  induction analyzers generalizing findings base with
  | nil => exact ⟨.refl base, .nil⟩
  | cons analyzer analyzers ih =>
    obtain ⟨hfirst, hrest⟩ := List.forall_mem_cons.mp hscript
    have hspec := (script analyzer).perform_spec analyzer.branch hstands
    rw [← hfirst] at hspec
    rw [runAnalyzers] at h ⊢
    rw [contributions]
    cases hsprigs : (script analyzer).sprigs? with
    | none =>
      rw [hsprigs] at hspec
      obtain ⟨fault, middle, hfault, -⟩ := hspec
      rw [hfault] at h
      cases h
    | some sprigs =>
      rw [hsprigs] at hspec
      obtain ⟨ids, middle, hmiddle, htends, hholds⟩ := hspec
      rw [hmiddle] at h ⊢
      have hle := htends.size_le hstands
      obtain ⟨hlater, hothers⟩ := ih hrest (hstands.proceeds (htends.steps.proceeds hstands)) h
      refine ⟨htends.trans hlater hstands, .cons ⟨rfl, sprigs, hsprigs, ?_⟩ ?_⟩
      · -- What this analyzer has planted stands while the later ones go on.
        exact hholds.imp fun _ _ hid => hid.tends hstands hlater
      · refine hothers.imp fun _ _ hcontribution => ?_
        obtain ⟨heq, others, hfound, hstanding⟩ := hcontribution
        exact ⟨heq, others, hfound, hstanding.imp fun _ _ hid => hid.base_le hle⟩

/-- A contribution shows the sprigs of an analyzer's script, in whatever slots they stand. -/
def Shows (script : Analyzer → Script) (contribution : Analyzer × List Dump) (analyzer : Analyzer) :
    Prop :=
  contribution.1 = analyzer ∧ ∃ sprigs, (script analyzer).sprigs? = some sprigs ∧
    List.Forall₂ (fun dump sprig => ∃ slot, dump = sprig.dump slot) contribution.2 sprigs

theorem Shows.same {first second : Analyzer × List Dump} {analyzer : Analyzer}
    (hfirst : Shows script first analyzer) (hsecond : Shows script second analyzer) :
    SameContribution first second := by
  obtain ⟨rfl, sprigs, hsprigs, hdumps⟩ := hfirst
  obtain ⟨heq, others, hothers, hmore⟩ := hsecond
  rw [hsprigs, Option.some.injEq] at hothers
  subst hothers
  refine ⟨heq.symm, forall₂_of_common ?_ hdumps hmore⟩
  rintro dump other sprig ⟨slot, rfl⟩ ⟨place, rfl⟩
  exact sprig.alike_dump slot place

namespace Visit

variable (visit : Visit)

def analysis : SourceAnalysis :=
  (analyzeSource visit.engine.analyzers visit.run.trunk.branches visit.file visit.reached).1

theorem outcome_eq :
    visit.outcome = .ofSource (visit.engine.displayPath visit.path) visit.analysis ∧
    visit.left =
      (analyzeSource visit.engine.analyzers visit.run.trunk.branches visit.file
        visit.reached).2 := by
  cases hwarning : (skipped (visit.engine.displayPath visit.path) visit.analysis).refusal? with
  | some fault => cases (analyzeFile_of_refused visit.reads hwarning).symm.trans visit.analyses
  | none =>
    have hanalyses := (analyzeFile_of_read visit.reads hwarning).symm.trans visit.analyses
    rw [Except.ok.injEq, Prod.mk.injEq] at hanalyses
    exact ⟨hanalyses.1.symm, hanalyses.2.symm⟩

theorem fault_of_success (h : visit.outcome.analysis.success = true) :
    visit.analysis.fault = none := by
  rw [visit.outcome_eq.1] at h
  exact Option.isNone_iff_eq_none.mp h

theorem buildTree_eq_ok : buildTree visit.engine.config visit.start =
    .ok visit.run.trunk visit.planted :=
  buildTree_of_plant visit.plants

theorem stands_planted : visit.run.trunk.Stands visit.planted := by
  obtain ⟨trunk, planted, hbuild, hstands, -⟩ := buildTree_eq visit.engine.config visit.reachable
  rw [visit.buildTree_eq_ok, EStateM.Result.ok.injEq] at hbuild
  rwa [hbuild.1, hbuild.2]

/-- The rest of the run: the files that come later, and the search for critical paths. -/
theorem exists_analyzed : ∃ others analyzed,
    visit.engine.analyzeFiles visit.fs visit.run.trunk.branches visit.later visit.left =
      .ok (others, analyzed) ∧
    visit.final =
      (criticalPaths visit.engine.config.confidenceFloor visit.run.trunk.branches.root analyzed).2 ∧
    visit.run.result.failedFiles =
      ((visit.before ++ visit.outcome :: others).map FileOutcome.analysis).filter
      fun analysis => !analysis.success := by
  obtain ⟨planted, scan, outcomes, analyzed, hplant, hscan, hfiles, hfinal, hresult⟩ :=
    exists_of_run_eq_ok visit.runs
  rw [visit.plants, Except.ok.injEq, Prod.mk.injEq] at hplant
  rw [visit.scans, Except.ok.injEq] at hscan
  rw [← hplant.2, ← hscan, visit.files, analyzeFiles_append,
    EngineM.bind_of_ok visit.reaches] at hfiles
  obtain ⟨rest, after, hrest, hdone⟩ := EngineM.exists_of_bind_eq_ok hfiles
  cases hdone
  rw [analyzeFiles, EngineM.bind_of_ok visit.analyses] at hrest
  obtain ⟨others, after, hothers, hdone⟩ := EngineM.exists_of_bind_eq_ok hrest
  cases hdone
  exact ⟨others, analyzed, hothers, hfinal, by rw [hresult]; rfl⟩

theorem map_fst_contributed (h : visit.outcome.analysis.success = true) :
    visit.contributed.map Prod.fst = visit.engine.analyzers := by
  have hfault := visit.fault_of_success h
  rw [analysis, analyzeSource] at hfault
  rw [contributed, List.map_map]
  exact (contributions_of_ok hfault).1

/-- The findings of the file are what its analyzers have contributed. -/
theorem flatMap_contributed (h : visit.outcome.analysis.success = true) :
    visit.contributed.flatMap Prod.snd =
      visit.outcome.analysis.findings.map fun id => (Store.dump id visit.final).1 := by
  have hfault := visit.fault_of_success h
  rw [analysis, analyzeSource] at hfault
  have hfindings := (contributions_of_ok hfault).2
  rw [visit.outcome_eq.1]
  change _ = visit.analysis.findings.map _
  rw [analysis, analyzeSource, hfindings, List.nil_append, List.map_flatMap, contributed,
    List.flatMap_map]

theorem stands_reached (hscripted : ∀ analyzer ∈ visit.engine.analyzers, analyzer.Scripted) :
    visit.run.trunk.Stands visit.reached := by
  obtain ⟨sources, hreached⟩ := exists_sources_of_analyzeFiles visit.reaches
  have htends := tends_analyzeSources hscripted sources visit.stands_planted
  rw [← hreached] at htends
  exact visit.stands_planted.proceeds (htends.steps.proceeds visit.stands_planted)

/-- What stands when the file has been analysed is only added to and asked until the run is over. -/
theorem exists_tends_of_left (hscripted : ∀ analyzer ∈ visit.engine.analyzers, analyzer.Scripted)
    (hstands : visit.run.trunk.Stands visit.left) :
    ∃ analyzed ids, Tends visit.run.trunk visit.left analyzed ∧
      visit.final = analyzed.ask ids ∧ OrdinarilyReachable visit.final := by
  obtain ⟨others, analyzed, hfiles, hfinal, -⟩ := visit.exists_analyzed
  obtain ⟨sources, hanalyzed⟩ := exists_sources_of_analyzeFiles hfiles
  have htends := tends_analyzeSources hscripted sources hstands
  rw [← hanalyzed] at htends
  have hreachable := (hstands.proceeds (htends.steps.proceeds hstands)).reachable
  obtain ⟨ids, hids⟩ := (Reads.criticalPaths hreachable.arenaSound hreachable.memosBounded
    visit.engine.config.confidenceFloor visit.run.trunk.branches.root).exists_ask []
  have hasked : visit.final = analyzed.ask ids := hfinal.trans hids
  exact ⟨analyzed, ids, htends, hasked, hasked ▸ hreachable.ask (fun _ => rfl) ids⟩

/-- In the end of a run, what the scripts for a file have planted is shown as it has grown. -/
theorem shows_contributed (hscripted : ∀ analyzer ∈ visit.engine.analyzers, analyzer.Scripted)
    (hscript : ∀ analyzer ∈ visit.engine.analyzers, ∀ branches,
      analyzer.analyze visit.file branches =
        (script analyzer).perform (branches.get analyzer.branch))
    (h : visit.outcome.analysis.success = true) :
    List.Forall₂ (Shows script) visit.contributed visit.engine.analyzers := by
  have hstands := visit.stands_reached hscripted
  obtain ⟨htends, hholds⟩ := holds_contributions hscript hstands (visit.fault_of_success h)
  rw [← analyzeSource, ← visit.outcome_eq.2] at htends hholds
  obtain ⟨analyzed, ids, hlater, hfinal, hreachable⟩ :=
    visit.exists_tends_of_left hscripted (hstands.proceeds (htends.steps.proceeds hstands))
  rw [contributed, List.forall₂_map_left_iff]
  refine hholds.imp fun contribution analyzer hcontribution => ?_
  obtain ⟨heq, sprigs, hsprigs, hstanding⟩ := hcontribution
  refine ⟨heq, sprigs, hsprigs,
    List.forall₂_map_left_iff.mpr (hstanding.imp fun id sprig hid => ?_)⟩
  obtain ⟨-, slot, hslot⟩ := hid.tends hstands hlater
  have hshown := hslot.ask ids
  rw [← hfinal] at hshown
  exact ⟨slot, hshown.dump_eq hreachable.arenaSound hreachable.memosExact⟩

end Visit

/-- Whatever decides on names alone picks out contributions that show what the chosen analyzers
have. -/
theorem shows_filter {contributed : List (Analyzer × List Dump)} (chosen : String → Bool)
    (h : List.Forall₂ (Shows script) contributed analyzers) :
    List.Forall₂ (Shows script) (contributed.filter fun contribution => chosen contribution.1.name)
      (analyzers.filter fun analyzer => chosen analyzer.name) := by
  refine List.rel_filter ?_ h
  rintro contribution analyzer ⟨rfl, -⟩
  exact Iff.rfl

theorem filter_analyzers_comm {first second : Engine}
    (hregistry : first.registry = second.registry) :
    (first.analyzers.filter fun analyzer => analyzer.name ∉ second.config.disabled) =
      second.analyzers.filter fun analyzer => analyzer.name ∉ first.config.disabled := by
  simp only [Engine.analyzers, Registry.enabled, hregistry, List.filter_filter]
  refine List.filter_congr fun analyzer _ => ?_
  simp [Bool.and_comm]

theorem filter_analyzers_of_disabled {first second : Engine}
    (hregistry : first.registry = second.registry) {name : String}
    (hdisabled : ∀ other, other ∈ second.config.disabled ↔
      other = name ∨ other ∈ first.config.disabled) :
    (first.analyzers.filter fun analyzer => analyzer.name ≠ name) = second.analyzers := by
  simp only [Engine.analyzers, Registry.enabled, hregistry, List.filter_filter]
  refine List.filter_congr fun analyzer _ => ?_
  simp [hdisabled]

/-- Analyzers and files do not interfere. Take two runs with the same analyzers, whichever of these
are disabled, over whatever files in whatever order, and a path and a content that both of them meet
and analyse without failure. Then each run's findings for this file are what its enabled analyzers
have contributed in turn, and when both runs are over, those analyzers that are enabled in both have
contributed findings that are dumped in the same way, one by one, but for one offset between all ids
of a dump. So disabling an analyzer takes away just its own findings. -/
theorem contributed_same {first second : Visit}
    (hregistry : first.engine.registry = second.engine.registry)
    (hscripted : ∀ analyzer ∈ first.engine.registry, analyzer.Declared ∨ analyzer.Scripted)
    (hpath : first.engine.displayPath first.path = second.engine.displayPath second.path)
    (hcontent : first.content = second.content) (hfirst : first.outcome.analysis.success = true)
    (hsecond : second.outcome.analysis.success = true) :
    (∀ visit ∈ [first, second], visit.contributed.map Prod.fst = visit.engine.analyzers ∧
      visit.contributed.flatMap Prod.snd =
        visit.outcome.analysis.findings.map fun id => (Store.dump id visit.final).1) ∧
    List.Forall₂ SameContribution
      (first.contributed.filter fun contribution =>
        contribution.1.name ∉ second.engine.config.disabled)
      (second.contributed.filter fun contribution =>
        contribution.1.name ∉ first.engine.config.disabled) ∧
    ∀ name, (∀ other, other ∈ second.engine.config.disabled ↔
        other = name ∨ other ∈ first.engine.config.disabled) →
      List.Forall₂ SameContribution
        (first.contributed.filter fun contribution => contribution.1.name ≠ name)
          second.contributed := by
  have hall : ∀ analyzer ∈ first.engine.registry, analyzer.Scripted := fun analyzer hmem =>
    (hscripted analyzer hmem).elim (fun h => h.scripted) fun h => h
  have hfile : first.file = second.file := by
    rw [Visit.file, Visit.file, hpath, hcontent]
  have hscript : ∀ analyzer, ∃ script : Script, analyzer ∈ first.engine.registry → ∀ branches,
      analyzer.analyze first.file branches = script.perform (branches.get analyzer.branch) := by
    intro analyzer
    by_cases hmem : analyzer ∈ first.engine.registry
    · obtain ⟨script, hscript⟩ := hall analyzer hmem first.file
      exact ⟨script, fun _ => hscript⟩
    · exact ⟨{}, fun h => absurd h hmem⟩
  choose script hscript using hscript
  have hshows : List.Forall₂ (Shows script) first.contributed first.engine.analyzers := by
    refine first.shows_contributed
      (fun analyzer hmem => hall analyzer (List.mem_filter.mp hmem).1) ?_ hfirst
    exact fun analyzer hmem => hscript analyzer (List.mem_filter.mp hmem).1
  have hothers : List.Forall₂ (Shows script) second.contributed second.engine.analyzers := by
    rw [hregistry] at hall hscript
    refine second.shows_contributed
      (fun analyzer hmem => hall analyzer (List.mem_filter.mp hmem).1) ?_ hsecond
    rw [← hfile]
    exact fun analyzer hmem => hscript analyzer (List.mem_filter.mp hmem).1
  have hsame : ∀ a b (c : Analyzer), Shows script a c → Shows script b c → SameContribution a b :=
    fun _ _ _ hleft hright => hleft.same hright
  refine ⟨?_, ?_, fun name hdisabled => ?_⟩
  · simp only [List.forall_mem_cons, List.not_mem_nil, false_imp_iff, implies_true, and_true]
    exact ⟨⟨first.map_fst_contributed hfirst, first.flatMap_contributed hfirst⟩,
      second.map_fst_contributed hsecond, second.flatMap_contributed hsecond⟩
  · have hleft := shows_filter (fun name => name ∉ second.engine.config.disabled) hshows
    have hright := shows_filter (fun name => name ∉ first.engine.config.disabled) hothers
    rw [filter_analyzers_comm hregistry] at hleft
    exact forall₂_of_common hsame hleft hright
  · have hleft := shows_filter (fun other => other ≠ name) hshows
    rw [filter_analyzers_of_disabled hregistry hdisabled] at hleft
    exact forall₂_of_common hsame hleft hothers

/-- Every file that a finished run has read has been visited. -/
theorem exists_visit {start final : Store} (hstart : OrdinarilyReachable start)
    {milliseconds : Int} {run : Run} (hrun : engine.run fs milliseconds start = .ok (run, final))
    {scan : Scan} (hscan : (engine.config.scope engine.project).scan fs = .ok scan) {path : Path}
    (hpath : path ∈ scan.files) {content : String}
    (hread : fs.readSource path = .ok (.ok content)) :
    ∃ visit : Visit, visit.engine = engine ∧ visit.fs = fs ∧ visit.run = run ∧ visit.final = final ∧
      visit.path = path ∧ visit.content = content := by
  obtain ⟨planted, found, outcomes, analyzed, hplant, hfound, hfiles, -⟩ := exists_of_run_eq_ok hrun
  rw [hscan, Except.ok.injEq] at hfound
  obtain ⟨earlier, later, hsplit⟩ := List.append_of_mem hpath
  rw [← hfound, hsplit, analyzeFiles_append] at hfiles
  obtain ⟨before, reached, hbefore, hrest⟩ := EngineM.exists_of_bind_eq_ok hfiles
  obtain ⟨others, after, hothers, -⟩ := EngineM.exists_of_bind_eq_ok hrest
  rw [analyzeFiles] at hothers
  obtain ⟨outcome, left, houtcome, -⟩ := EngineM.exists_of_bind_eq_ok hothers
  let visit : Visit :=
    { engine, fs, start, reachable := hstart, milliseconds, run, final, runs := hrun, planted,
      plants := hplant, scan, scans := hscan, earlier, path, later, files := hsplit, content,
      reads := hread, before, reached, reaches := hbefore, outcome, left, analyses := houtcome }
  exact ⟨visit, rfl, rfl, rfl, rfl, rfl, rfl⟩

/-- Where no file has failed, the visited one has not. -/
theorem Visit.success_of_failedFiles (visit : Visit) (h : visit.run.result.failedFiles = []) :
    visit.outcome.analysis.success = true := by
  obtain ⟨others, -, -, -, hfailed⟩ := visit.exists_analyzed
  rw [h] at hfailed
  have hnone := List.filter_eq_nil_iff.mp hfailed.symm visit.outcome.analysis (by simp)
  simpa using hnone

/-- The second of the two files, alone. -/
def loneChanceFile : FileSystem where
  top := [("p", .directory [("scripts", .directory [
    ("b.js", .file ("if (Math.random() await ".toList.map fun c => c.toNat.toUInt8))])])]

/-- The built-in analyzers without some of them. -/
def builtInWithout (disabled : List String) : Engine :=
  ⟨.ofString "/p", { disabled },
    [.codeExecution, .stateManagement, .asyncConcurrency (.eventCascade 10), .dataFlow]⟩

/-- A visit to a file can be had by evaluation. -/
theorem exists_visit_of_evaluation {disabled : List String} {fs : FileSystem} {path : Path}
    {content : String} (hrun : ((builtInWithout disabled).run fs 0 Store.empty).toOption.map
      (fun done => done.1.result.failedFiles.length) = some 0)
    (hpath : (((builtInWithout disabled).config.scope (.ofString "/p")).scan fs).toOption.map
      (fun scan => decide (path ∈ scan.files)) = some true)
    (hread : (fs.readSource path).toOption.map Except.toOption = some (some content)) :
    ∃ visit : Visit, visit.engine = builtInWithout disabled ∧ visit.fs = fs ∧ visit.path = path ∧
      visit.content = content ∧ visit.outcome.analysis.success = true := by
  cases hdone : (builtInWithout disabled).run fs 0 Store.empty with
  | error fault =>
    rw [hdone] at hrun
    cases hrun
  | ok done =>
    cases hscan : ((builtInWithout disabled).config.scope (.ofString "/p")).scan fs with
    | error fault =>
      rw [hscan] at hpath
      cases hpath
    | ok scan =>
      obtain ⟨source, hsource, hcontent⟩ := Option.map_eq_some_iff.mp hread
      have hok := Except.eq_ok_of_toOption hsource
      rw [Except.eq_ok_of_toOption hcontent] at hok
      rw [hdone, Except.toOption, Option.map_some, Option.some.injEq,
        List.length_eq_zero_iff] at hrun
      rw [hscan, Except.toOption, Option.map_some, Option.some.injEq] at hpath
      obtain ⟨visit, hengine, hfs, hsame, -, hplace, htext⟩ :=
        exists_visit .refl hdone hscan (of_decide_eq_true hpath) hok
      rw [← hsame] at hrun
      exact ⟨visit, hengine, hfs, hplace, htext, visit.success_of_failedFiles hrun⟩

/-- In the first run the file comes after another one, and one more analyzer is enabled. -/
theorem contributed_same_of_loneChanceFile : ∃ first second : Visit,
    first.fs = chanceFiles ∧ first.engine = builtInWithout [] ∧
    second.fs = loneChanceFile ∧ second.engine = builtInWithout ["StateManagementAnalyzer"] ∧
    second.contributed.map (fun contribution => contribution.1.name) =
      ["CodeExecutionAnalyzer", "AsyncConcurrencyAnalyzer", "DataFlowAnalyzer"] ∧
    List.Forall₂ SameContribution
      (first.contributed.filter fun contribution => contribution.1.name ≠ "StateManagementAnalyzer")
      second.contributed := by
  obtain ⟨first, hfirst, hfiles, hpath, hcontent, hsuccess⟩ : ∃ visit : Visit,
      visit.engine = builtInWithout [] ∧ visit.fs = chanceFiles ∧
      visit.path = ⟨.top, ["p", "scripts", "b.js"]⟩ ∧
      visit.content = "if (Math.random() await " ∧ visit.outcome.analysis.success = true :=
    exists_visit_of_evaluation (by decide +kernel) (by decide +kernel) (by decide +kernel)
  obtain ⟨second, hsecond, hlone, hplace, htext, hdone⟩ : ∃ visit : Visit,
      visit.engine = builtInWithout ["StateManagementAnalyzer"] ∧ visit.fs = loneChanceFile ∧
      visit.path = ⟨.top, ["p", "scripts", "b.js"]⟩ ∧ visit.content = "if (Math.random() await " ∧
      visit.outcome.analysis.success = true :=
    exists_visit_of_evaluation (by decide +kernel) (by decide +kernel) (by decide +kernel)
  have hdeclared : ∀ analyzer ∈ first.engine.registry, analyzer.Declared ∨ analyzer.Scripted := by
    have hbuilt : Registry.builtIn 10 = .ok (builtInWithout []).registry := rfl
    rw [hfirst]
    exact fun analyzer hmem => Or.inl (Registry.declared_of_builtIn hbuilt hmem)
  have hregistry : first.engine.registry = second.engine.registry := by
    rw [hfirst, hsecond]
    rfl
  have hshown : first.engine.displayPath first.path = second.engine.displayPath second.path := by
    rw [hfirst, hsecond, hpath, hplace]
    rfl
  obtain ⟨hall, -, hwithout⟩ :=
    contributed_same hregistry hdeclared hshown (hcontent.trans htext.symm) hsuccess hdone
  obtain ⟨hanalyzers, -⟩ := hall second (List.mem_cons_of_mem _ List.mem_cons_self)
  refine ⟨first, second, hfiles, hfirst, hlone, hsecond, ?_,
    hwithout "StateManagementAnalyzer" fun other => ?_⟩
  · have hnames := congrArg (List.map Analyzer.name) hanalyzers
    rw [List.map_map, hsecond] at hnames
    exact hnames
  · rw [hfirst, hsecond]
    simp [builtInWithout]

end Engine

end RiskScan

import Mathlib.Algebra.BigOperators.Ring.Finset
import RiskScan.Proofs.Compound.Detection
import RiskScan.Proofs.Engine.Checks
import RiskScan.Proofs.Engine.Planting
import RiskScan.Proofs.Engine.Running
import RiskScan.Proofs.Engine.Warnings
/-!
# The verdict of a run

All files of a run share a tree, but what the analyzers add for a file depends on this file alone,
and refers to nothing that was there before. So the tree of a run has a critical node exactly if the
bare trunk has one or some file adds one, and files can be judged one at a time.
-/

namespace RiskScan

open Store Engine

/-! ### Many parts -/

namespace Marks

/-- Some parts, one behind the other. -/
def joined (parts : List Marks) : Marks :=
  parts.foldr followedBy []

variable {parts : List Marks} {floor : Float}

theorem Closed.joined (hparts : ∀ part ∈ parts, part.Closed) : (joined parts).Closed := by
  induction parts with
  | nil => exact .nil
  | cons part parts ih =>
    obtain ⟨hpart, hrest⟩ := List.forall_mem_cons.mp hparts
    exact hpart.followedBy (ih hrest)

theorem someCritical_joined (hparts : ∀ part ∈ parts, part.Closed) :
    SomeCritical floor (joined parts) ↔ ∃ part ∈ parts, SomeCritical floor part := by
  induction parts with
  | nil => exact iff_of_false not_someCritical_nil (by simp)
  | cons part parts ih =>
    obtain ⟨hpart, hrest⟩ := List.forall_mem_cons.mp hparts
    rw [List.exists_mem_cons_iff, ← ih hrest]
    exact someCritical_followedBy hpart (.joined hrest)

end Marks

/-- What has been added to the tree of a trunk, under any of its branches. -/
structure Adds (trunk : Trunk) (marks : Marks) (before after : Store) : Prop where
  proceeds : before.Proceeds after
  marks : after.marks trunk.tree = (before.marks trunk.tree).followedBy marks

variable {trunk : Trunk} {marks more : Marks} {before middle after store : Store}

namespace Adds

theorem refl (store : Store) : Adds trunk [] store store where
  proceeds := .refl
  marks := (Marks.followedBy_nil _).symm

theorem trans (hleft : Adds trunk marks before middle) (hright : Adds trunk more middle after) :
    Adds trunk (marks.followedBy more) before after where
  proceeds := hleft.proceeds.trans hright.proceeds
  marks := by rw [hright.marks, hleft.marks, Marks.followedBy_assoc]

theorem of_grows {branch : Branch} {growth : Growth} {found : List NodeId}
    (h : Grows trunk branch growth found before after) : Adds trunk growth.marks before after :=
  ⟨h.proceeds, h.marks⟩

/-- What is added refers to nothing that was there before. -/
theorem closed (h : Adds trunk marks before after) (hstands : trunk.Stands before) :
    marks.Closed := by
  have hclosed := (hstands.proceeds h.proceeds).reachable.arenaSound.closed_marks trunk.tree
  rw [h.marks] at hclosed
  exact hclosed.of_followedBy

end Adds

/-! ### Files -/

/-- Some analyzers, taken together, add a known growth for each file. -/
def Analyzer.Add (analyzers : List Analyzer) (growth : SourceFile → Growth) : Prop :=
  ∀ (trunk : Trunk) (file : SourceFile) (store : Store), trunk.Stands store →
    let analysis := analyzeSource analyzers trunk.branches file store
    Adds trunk (growth file).marks store analysis.2 ∧
      analysis.1.findings.length = (growth file).attached

namespace Engine

theorem adds_runAnalyzers {analyzers : List Analyzer} {file : SourceFile}
    {growth : Analyzer → Growth}
    (hyields : ∀ analyzer ∈ analyzers, Yields trunk analyzer.branch (growth analyzer)
      (analyzer.analyze file trunk.branches) (· = ·))
    (findings : List NodeId) (hstands : trunk.Stands store) :
    let analysis := runAnalyzers file trunk.branches analyzers findings store
    let total := Growth.sequence (analyzers.map growth)
    Adds trunk total.marks store analysis.2 ∧
      analysis.1.findings.length = findings.length + total.attached ∧
      (total.fails = false → analysis.1.fault = none) := by
  induction analyzers generalizing findings store with
  | nil => exact ⟨.refl store, rfl, fun _ => rfl⟩
  | cons analyzer analyzers ih =>
    obtain ⟨hfirst, hrest⟩ := List.forall_mem_cons.mp hyields
    have hsequence : Growth.sequence ((analyzer :: analyzers).map growth) =
        (growth analyzer).andThen (Growth.sequence (analyzers.map growth)) := rfl
    obtain ⟨found, after, hgrows, ⟨hfails, fault, hfault⟩ | ⟨hfails, returned, hok, rfl⟩⟩ :=
      hfirst store hstands
    · -- what is read off the branch of an analyzer that fails is what it has attached
      have hown := hgrows.children analyzer.branch
      rw [if_pos rfl] at hown
      simp only [runAnalyzers, hfault, hsequence, Growth.andThen_of_fails hfails]
      refine ⟨.of_grows hgrows, ?_, fun hgoesOn => ?_⟩
      · rw [hown, List.drop_left, List.length_append, hgrows.attached]
      · rw [hfails] at hgoesOn
        cases hgoesOn
    · obtain ⟨hadds, hlength, hgoesOn⟩ :=
        ih hrest (findings ++ returned) (hstands.proceeds hgrows.proceeds)
      simp only [runAnalyzers, hok, hsequence, Growth.andThen_of_not_fails hfails]
      refine ⟨(Adds.of_grows hgrows).trans hadds, ?_, hgoesOn⟩
      rw [hlength, List.length_append, hgrows.attached, Nat.add_assoc]

theorem add_of_yields {analyzers : List Analyzer} {growth : SourceFile → Analyzer → Growth}
    (hyields : ∀ file, ∀ analyzer ∈ analyzers, ∀ trunk,
      Yields trunk analyzer.branch (growth file analyzer)
      (analyzer.analyze file trunk.branches) (· = ·)) :
    Analyzer.Add analyzers fun file => Growth.sequence (analyzers.map (growth file)) := by
  intro trunk file store hstands
  obtain ⟨hadds, hlength, -⟩ :=
    adds_runAnalyzers (fun analyzer hmem => hyields file analyzer hmem trunk) [] hstands
  exact ⟨hadds, hlength.trans (Nat.zero_add _)⟩

theorem add_of_uniform {analyzers : List Analyzer}
    (huniform : ∀ analyzer ∈ analyzers, analyzer.Uniform) :
    ∃ growth, Analyzer.Add analyzers growth := by
  have hgrowth : ∀ (file : SourceFile) (analyzer : Analyzer), ∃ growth, analyzer ∈ analyzers →
      ∀ trunk,
      Yields trunk analyzer.branch growth (analyzer.analyze file trunk.branches) (· = ·) := by
    intro file analyzer
    by_cases hmem : analyzer ∈ analyzers
    · obtain ⟨growth, hyields⟩ := huniform analyzer hmem file
      exact ⟨growth, fun _ => hyields⟩
    · exact ⟨{}, fun h => absurd h hmem⟩
  choose growth hyields using hgrowth
  exact ⟨_, add_of_yields hyields⟩

variable {analyzers : List Analyzer} {growth : SourceFile → Growth}

theorem adds_analyzeSources (hadd : Analyzer.Add analyzers growth) (files : List SourceFile)
    (hstands : trunk.Stands store) :
    let analysis := analyzeSources analyzers trunk.branches files store
    Adds trunk (Marks.joined (files.map fun file => (growth file).marks)) store analysis.2 ∧
      (findingsOf analysis.1).length = (files.map fun file => (growth file).attached).sum := by
  induction files generalizing store with
  | nil => exact ⟨.refl store, rfl⟩
  | cons file files ih =>
    obtain ⟨hfirst, hlength⟩ := hadd trunk file store hstands
    obtain ⟨hrest, hlengths⟩ := ih (hstands.proceeds hfirst.proceeds)
    refine ⟨hfirst.trans hrest, ?_⟩
    rw [List.map_cons, List.sum_cons, ← hlength, ← hlengths, ← List.length_append]
    rfl

/-- Where the growths of all analyzers go on, no file is left with a fault. -/
theorem goesOn_analyzeSources {growth : SourceFile → Analyzer → Growth}
    (hyields : ∀ file, ∀ analyzer ∈ analyzers, Yields trunk analyzer.branch (growth file analyzer)
      (analyzer.analyze file trunk.branches) (· = ·))
    (hgoesOn : ∀ file, (Growth.sequence (analyzers.map (growth file))).fails = false)
    (files : List SourceFile) (hstands : trunk.Stands store) :
    ∀ analysis ∈ (analyzeSources analyzers trunk.branches files store).1,
    analysis.fault = none := by
  induction files generalizing store with
  | nil => exact fun analysis hmem => absurd hmem List.not_mem_nil
  | cons file files ih =>
    obtain ⟨hadds, -, hfault⟩ := adds_runAnalyzers (hyields file) [] hstands
    exact List.forall_mem_cons.mpr ⟨hfault (hgoesOn file), ih (hstands.proceeds hadds.proceeds)⟩

/-! ### Runs -/

theorem Trunk.Stands.criticalPaths_ne_nil_iff (hstands : trunk.Stands store) (floor : Float) :
    (Store.criticalPaths floor trunk.branches.root store).1 ≠ [] ↔
      (store.marks trunk.tree).SomeCritical floor := by
  have hreachable := hstands.reachable
  rw [← hstands.root, ne_eq,
    criticalPaths_eq_nil_iff hreachable.strict hreachable.memosBounded hstands.planted,
    ← exists_critical_iff hreachable.arenaSound hreachable.memosBounded]
  simp only [not_forall, not_not, exists_prop]

end Engine

theorem AnalysisResult.exitCode_eq (result : AnalysisResult) :
    result.exitCode = if result.criticalPaths ≠ [] then 1 else 0 := by
  rw [exitCode, success]
  cases result.criticalPaths <;> rfl

/-- What is decided on the ground of a run. -/
structure Verdict where
  exitCode : Nat
  totalIssues : Int
  deriving DecidableEq, Repr

def AnalysisResult.verdict (result : AnalysisResult) : Verdict :=
  ⟨result.exitCode, result.totalIssues⟩

namespace Engine

variable {engine : Engine} {growth : SourceFile → Growth} {start : Store}

/-- The verdict on some files, told from what is added for each of them. -/
def verdictOf (config : Config) (growth : SourceFile → Growth) (files : List SourceFile) :
    Verdict where
  exitCode :=
    if (trunkMarks config).SomeCritical config.confidenceFloor ∨
      ∃ file ∈ files, (growth file).marks.SomeCritical config.confidenceFloor then 1 else 0
  totalIssues := (files.map fun file => (growth file).attached).sum

theorem exitCode_verdictOf (config : Config) (growth : SourceFile → Growth)
    (files : List SourceFile) :
    (verdictOf config growth files).exitCode = 1 ↔
      (trunkMarks config).SomeCritical config.confidenceFloor ∨
        ∃ file ∈ files, (growth file).marks.SomeCritical config.confidenceFloor := by
  unfold verdictOf
  dsimp only
  split <;> simp [*]

theorem verdict_eq (hadd : Analyzer.Add engine.analyzers growth) {planted : Store}
    (hstands : trunk.Stands planted) (hmarks : planted.marks trunk.tree = trunkMarks engine.config)
    (files : List SourceFile) {result : AnalysisResult}
    (hpaths : result.criticalPaths =
      (Store.criticalPaths engine.config.confidenceFloor trunk.branches.root
      (analyzeSources engine.analyzers trunk.branches files planted).2).1)
    (htotal : result.totalIssues =
      (findingsOf (analyzeSources engine.analyzers trunk.branches files planted).1).length) :
    result.verdict = verdictOf engine.config growth files := by
  obtain ⟨hadds, hlength⟩ := adds_analyzeSources hadd files hstands
  have hparts : ∀ part ∈ files.map fun file => (growth file).marks, part.Closed := by
    intro part hpart
    obtain ⟨file, -, rfl⟩ := List.mem_map.mp hpart
    exact (hadd trunk file planted hstands).1.closed hstands
  have htrunk : (trunkMarks engine.config).Closed :=
    hmarks ▸ hstands.reachable.arenaSound.closed_marks trunk.tree
  have hcritical : result.criticalPaths ≠ [] ↔
      (trunkMarks engine.config).SomeCritical engine.config.confidenceFloor ∨
        ∃ file ∈ files, (growth file).marks.SomeCritical engine.config.confidenceFloor := by
    rw [hpaths, (hstands.proceeds hadds.proceeds).criticalPaths_ne_nil_iff, hadds.marks, hmarks,
      Marks.someCritical_followedBy htrunk (.joined hparts), Marks.someCritical_joined hparts]
    simp only [List.mem_map, exists_exists_and_eq_and]
  have hexit : result.exitCode = (verdictOf engine.config growth files).exitCode :=
    result.exitCode_eq.trans (if_congr hcritical rfl rfl)
  rw [AnalysisResult.verdict, hexit, htotal, hlength]
  rfl

theorem exists_run_verdict (hadd : Analyzer.Add engine.analyzers growth)
    (hstart : OrdinarilyReachable start) {fs : FileSystem} {files : List SourceFile}
    (hsources : engine.sources fs = .ok files)
    (haccepted : (engine.warningsOn files start).refusal? = none) (milliseconds : Int) :
    ∃ run final, engine.run fs milliseconds start = .ok (run, final) ∧
      run.result.verdict = verdictOf engine.config growth files := by
  obtain ⟨trunk, planted, hplant, hstands, -, hmarks⟩ := buildTree_eq engine.config hstart
  obtain ⟨run, hrun, hpaths, htotal⟩ := run_of_sources hplant hsources haccepted milliseconds
  exact ⟨run, _, hrun, verdict_eq hadd hstands hmarks files hpaths htotal⟩

theorem run_of_unreadable (hstart : OrdinarilyReachable start) {fs : FileSystem} {fault : Fault}
    (hsources : engine.sources fs = .error fault) (milliseconds : Int) :
    ∃ files, engine.run fs milliseconds start =
      .error ((engine.warningsOn files start).refusal?.getD fault) := by
  obtain ⟨trunk, planted, hplant, -⟩ := buildTree_eq engine.config hstart
  exact run_of_error hplant hsources milliseconds

/-- A run that has ended has read its files, and its verdict is the one on them. -/
theorem exists_sources_of_run (hadd : Analyzer.Add engine.analyzers growth)
    (hstart : OrdinarilyReachable start) {fs : FileSystem} {milliseconds : Int} {run : Run}
    {final : Store} (h : engine.run fs milliseconds start = .ok (run, final)) :
    ∃ files, engine.sources fs = .ok files ∧
      run.result.verdict = verdictOf engine.config growth files := by
  obtain ⟨files, hsources, haccepted⟩ := exists_sources_of_run_eq_ok h
  obtain ⟨_, _, hrun, hverdict⟩ := exists_run_verdict hadd hstart hsources haccepted milliseconds
  cases hrun.symm.trans h
  exact ⟨files, hsources, hverdict⟩

theorem runOn_verdict (hadd : Analyzer.Add engine.analyzers growth)
    (hstart : OrdinarilyReachable start) (files : List SourceFile) :
    (engine.runOn files start).map (fun done => done.1.verdict) =
      (engine.warningsOn files start).refusal?.elim (.ok (verdictOf engine.config growth files))
        .error := by
  obtain ⟨trunk, planted, hplant, hstands, -, hmarks⟩ := buildTree_eq engine.config hstart
  cases hwarnings : (engine.warningsOn files start).refusal? with
  | some fault =>
    rw [runOn_of_refused hplant hwarnings]
    rfl
  | none =>
    obtain ⟨result, hrun, hpaths, htotal⟩ := runOn_of_ok hplant hwarnings
    rw [hrun, Except.map, verdict_eq hadd hstands hmarks files hpaths htotal, Option.elim_none]

end Engine

end RiskScan

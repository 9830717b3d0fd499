import RiskScan.Engine
/-!
# Runs on known files

Reading the files of a project does not depend on what the analyses make of them. So a run is one on
the files that can be read, each with its content: these are analysed one after the other under a
new trunk, and in the end the tree is searched for critical paths. A run breaks off where the
console refuses the warning of a file, which takes an analysis that fails.
-/

namespace RiskScan.Engine

/-- The files at some paths, without those that cannot be read. -/
def readFiles (engine : Engine) (fs : FileSystem) : List Path → Except Fault (List SourceFile)
  | [] => return []
  | path :: paths => do
    let source ← fs.readSource path
    let files ← readFiles engine fs paths
    match source with
    | .error _ => return files
    | .ok content => return .ofContent (engine.displayPath path) content :: files

/-- The files of a project that a scan collects and that can be read. -/
def sources (engine : Engine) (fs : FileSystem) : Except Fault (List SourceFile) := do
  let scan ← (engine.config.scope engine.project).scan fs
  engine.readFiles fs scan.files

def analyzeSources (analyzers : List Analyzer) (branches : Branches) :
    List SourceFile → StateM Store (List SourceAnalysis)
  | [] => return []
  | file :: files => do
    let analysis ← analyzeSource analyzers branches file
    return analysis :: (← analyzeSources analyzers branches files)

/-- What is printed about some files, told from what has come of their analyses. -/
def skippedAmong (files : List SourceFile) (analyses : List SourceAnalysis) : Transcript :=
  (List.zipWith (fun file analysis => skipped file.path analysis) files analyses).flatten

/-- What is printed while some files are analysed. -/
def printedOn (analyzers : List Analyzer) (branches : Branches) (files : List SourceFile)
    (store : Store) : Transcript :=
  skippedAmong files (analyzeSources analyzers branches files store).1

/-- The warnings of a run on files whose content is known. -/
def warningsOn (engine : Engine) (files : List SourceFile) (start : Store) : Transcript :=
  match engine.plant start with
  | .ok (trunk, planted) => printedOn engine.analyzers trunk.branches files planted
  | .error _ => []

/-- The findings of some analyses, in their order. -/
def findingsOf (analyses : List SourceAnalysis) : List NodeId :=
  analyses.flatMap SourceAnalysis.findings

/-- The result of a run on files whose content is known. -/
def runOn (engine : Engine) (files : List SourceFile) : EngineM AnalysisResult := do
  let trunk ← engine.plant
  let analyses ← modifyGet (analyzeSources engine.analyzers trunk.branches files).run
  match (skippedAmong files analyses).refusal? with
  | some fault => throw fault
  | none =>
    let root := trunk.branches.root
    let criticalPaths ← modifyGet (Store.criticalPaths engine.config.confidenceFloor root).run
    return {
      root
      criticalPaths
      totalIssues := (findingsOf analyses).length
      filesAnalyzed := files.length
      milliseconds := 0 }

variable {engine : Engine} {fs : FileSystem} {branches : Branches} {paths : List Path}
  {files : List SourceFile} {store : Store} {fault : Fault}

theorem EngineM.bind_of_ok {α β : Type} {part : EngineM α} {next : α → EngineM β} {a : α}
    {before middle : Store} (h : part before = .ok (a, middle)) :
    (part >>= next) before = next a middle := by
  change StateT.bind part next before = _
  rw [StateT.bind, h]
  rfl

theorem EngineM.bind_of_error {α β : Type} {part : EngineM α} {next : α → EngineM β}
    {before : Store} (h : part before = .error fault) : (part >>= next) before = .error fault := by
  change StateT.bind part next before = _
  rw [StateT.bind, h]
  rfl

theorem EngineM.modifyGet_eq {α : Type} (part : StateM Store α) (before : Store) :
    (modifyGet part.run : EngineM α) before = .ok ((part before).1, (part before).2) :=
  rfl

theorem EngineM.exists_of_bind_eq_ok {α β : Type} {part : EngineM α} {next : α → EngineM β}
    {before : Store} {result : β × Store} (h : (part >>= next) before = .ok result) :
    ∃ a middle, part before = .ok (a, middle) ∧ next a middle = .ok result := by
  cases hpart : part before with
  | error fault =>
    rw [bind_of_error hpart] at h
    cases h
  | ok done =>
    obtain ⟨a, middle⟩ := done
    rw [bind_of_ok hpart] at h
    exact ⟨a, middle, rfl, h⟩

theorem refusal?_printedOn_cons (analyzers : List Analyzer) (branches : Branches)
    (file : SourceFile) (files : List SourceFile) (store : Store) :
    (printedOn analyzers branches (file :: files) store).refusal? =
      (skipped file.path (analyzeSource analyzers branches file store).1).refusal?.or
        (printedOn analyzers branches files
          (analyzeSource analyzers branches file store).2).refusal? :=
  List.findSome?_append

/-- Nothing is printed about files that no analyzer fails on. -/
theorem printedOn_eq_nil {analyzers : List Analyzer}
    (h : ∀ analysis ∈ (analyzeSources analyzers branches files store).1, analysis.fault = none) :
    printedOn analyzers branches files store = [] := by
  induction files generalizing store with
  | nil => rfl
  | cons file files ih =>
    obtain ⟨hfault, hrest⟩ := List.forall_mem_cons.mp h
    have hfirst : (analyzeSource analyzers branches file store).1.fault = none := hfault
    have hcons : printedOn analyzers branches (file :: files) store =
        skipped file.path (analyzeSource analyzers branches file store).1 ++
          printedOn analyzers branches files (analyzeSource analyzers branches file store).2 := rfl
    rw [hcons, skipped, hfirst]
    exact ih hrest

theorem analyzeFile_of_error {path : Path} (h : fs.readSource path = .error fault) :
    engine.analyzeFile fs branches path store = .error fault := by
  unfold analyzeFile
  rw [h]
  rfl

theorem analyzeFile_of_unread {path : Path} {error : SuppressedError}
    (h : fs.readSource path = .ok (.error error)) : engine.analyzeFile fs branches path store =
      .ok ({ analysis := { path := engine.displayPath path }, suppressed := [error] }, store) := by
  unfold analyzeFile
  rw [h]
  rfl

section

variable {path : Path} {content : String}

/-- The analysis of a file ends the run if the console refuses the warning that it has failed. -/
theorem analyzeFile_of_refused (h : fs.readSource path = .ok (.ok content))
    (hrefused : (skipped (engine.displayPath path) (analyzeSource engine.analyzers branches
      (.ofContent (engine.displayPath path) content) store).1).refusal? = some fault) :
    engine.analyzeFile fs branches path store = .error fault := by
  unfold analyzeFile
  rw [h]
  refine (EngineM.bind_of_ok rfl).trans ?_
  dsimp only
  rw [EngineM.bind_of_ok (EngineM.modifyGet_eq _ store), hrefused]
  rfl

theorem analyzeFile_of_read (h : fs.readSource path = .ok (.ok content))
    (haccepted : (skipped (engine.displayPath path) (analyzeSource engine.analyzers branches
      (.ofContent (engine.displayPath path) content) store).1).refusal? = none) :
    let analysis := analyzeSource engine.analyzers branches
      (.ofContent (engine.displayPath path) content) store
    engine.analyzeFile fs branches path store =
      .ok (.ofSource (engine.displayPath path) analysis.1, analysis.2) := by
  unfold analyzeFile
  rw [h]
  refine (EngineM.bind_of_ok rfl).trans ?_
  dsimp only
  rw [EngineM.bind_of_ok (EngineM.modifyGet_eq _ store), haccepted]
  rfl

end

theorem readFiles_cons (engine : Engine) (fs : FileSystem) (path : Path) (paths : List Path) :
    engine.readFiles fs (path :: paths) =
      match fs.readSource path, engine.readFiles fs paths with
      | .error fault, _ => .error fault
      | .ok _, .error fault => .error fault
      | .ok (.error _), .ok files => .ok files
      | .ok (.ok content), .ok files =>
        .ok (.ofContent (engine.displayPath path) content :: files) := by
  rw [readFiles]
  cases hread : fs.readSource path with
  | error fault => rfl
  | ok source =>
    cases engine.readFiles fs paths with
    | error fault => rfl
    | ok files => cases source <;> rfl

theorem readFiles_cons_of_ok {path : Path} (h : engine.readFiles fs (path :: paths) = .ok files) :
    (∃ error, fs.readSource path = .ok (.error error) ∧ engine.readFiles fs paths = .ok files) ∨
      ∃ content others, fs.readSource path = .ok (.ok content) ∧
      engine.readFiles fs paths = .ok others ∧
        files = .ofContent (engine.displayPath path) content :: others := by
  rw [readFiles_cons] at h
  cases hread : fs.readSource path with
  | error fault =>
    rw [hread] at h
    cases h
  | ok source =>
    cases hrest : engine.readFiles fs paths with
    | error fault =>
      rw [hread, hrest] at h
      cases source <;> cases h
    | ok others =>
      rw [hread, hrest] at h
      cases source with
      | error error =>
        cases h
        exact Or.inl ⟨error, rfl, rfl⟩
      | ok content =>
        cases h
        exact Or.inr ⟨content, others, rfl, rfl, rfl⟩

/-- A failure to read that stops the run is met whatever has been analysed before, unless the
warning of a file that was read before is refused. -/
theorem analyzeFiles_of_error (h : engine.readFiles fs paths = .error fault) :
    ∃ files, engine.analyzeFiles fs branches paths store =
      .error ((printedOn engine.analyzers branches files store).refusal?.getD fault) := by
  induction paths generalizing store with
  | nil => cases h
  | cons path paths ih =>
    rw [readFiles_cons] at h
    rw [analyzeFiles]
    cases hread : fs.readSource path with
    | error error =>
      rw [hread] at h
      cases h
      exact ⟨[], EngineM.bind_of_error (analyzeFile_of_error hread)⟩
    | ok source =>
      cases hrest : engine.readFiles fs paths with
      | ok files =>
        rw [hread, hrest] at h
        cases source <;> cases h
      | error error =>
        rw [hread, hrest] at h
        cases source with
        | error unread =>
          cases h
          obtain ⟨files, hfiles⟩ := @ih store hrest
          refine ⟨files, ?_⟩
          rw [EngineM.bind_of_ok (analyzeFile_of_unread hread)]
          exact EngineM.bind_of_error hfiles
        | ok content =>
          cases h
          obtain ⟨files, hfiles⟩ := @ih (analyzeSource engine.analyzers branches
            (.ofContent (engine.displayPath path) content) store).2 hrest
          refine ⟨.ofContent (engine.displayPath path) content :: files, ?_⟩
          rw [refusal?_printedOn_cons,
            show (SourceFile.ofContent (engine.displayPath path) content).path =
              engine.displayPath path from rfl]
          cases hwarning :
            (skipped (engine.displayPath path) (analyzeSource engine.analyzers branches
              (.ofContent (engine.displayPath path) content) store).1).refusal? with
          | some refused => exact EngineM.bind_of_error (analyzeFile_of_refused hread hwarning)
          | none =>
            rw [EngineM.bind_of_ok (analyzeFile_of_read hread hwarning), Option.none_or]
            exact EngineM.bind_of_error hfiles

theorem analyzeFiles_of_refused (h : engine.readFiles fs paths = .ok files)
    (hrefused : (printedOn engine.analyzers branches files store).refusal? = some fault) :
    engine.analyzeFiles fs branches paths store = .error fault := by
  induction paths generalizing store files with
  | nil =>
    cases h
    cases hrefused
  | cons path paths ih =>
    rw [analyzeFiles]
    obtain ⟨error, hread, hrest⟩ | ⟨content, others, hread, hrest, rfl⟩ := readFiles_cons_of_ok h
    · rw [EngineM.bind_of_ok (analyzeFile_of_unread hread)]
      exact EngineM.bind_of_error (ih hrest hrefused)
    · rw [refusal?_printedOn_cons, Option.or_eq_some_iff] at hrefused
      obtain hfirst | ⟨hfirst, hothers⟩ := hrefused
      · exact EngineM.bind_of_error (analyzeFile_of_refused hread hfirst)
      · rw [EngineM.bind_of_ok (analyzeFile_of_read hread hfirst)]
        exact EngineM.bind_of_error (ih hrest hothers)

theorem analyzeFiles_of_ok (h : engine.readFiles fs paths = .ok files)
    (haccepted : (printedOn engine.analyzers branches files store).refusal? = none) :
    ∃ outcomes, engine.analyzeFiles fs branches paths store =
        .ok (outcomes, (analyzeSources engine.analyzers branches files store).2) ∧
      (outcomes.flatMap fun outcome => outcome.analysis.findings) =
        findingsOf (analyzeSources engine.analyzers branches files store).1 := by
  induction paths generalizing store files with
  | nil =>
    cases h
    exact ⟨[], rfl, rfl⟩
  | cons path paths ih =>
    rw [analyzeFiles]
    obtain ⟨error, hread, hrest⟩ | ⟨content, others, hread, hrest, rfl⟩ := readFiles_cons_of_ok h
    · obtain ⟨outcomes, houtcomes, hfindings⟩ := ih hrest haccepted
      rw [EngineM.bind_of_ok (analyzeFile_of_unread hread), EngineM.bind_of_ok houtcomes]
      exact ⟨_, rfl, hfindings⟩
    · rw [refusal?_printedOn_cons, Option.or_eq_none_iff] at haccepted
      obtain ⟨outcomes, houtcomes, hfindings⟩ := ih hrest haccepted.2
      rw [EngineM.bind_of_ok (analyzeFile_of_read hread haccepted.1), EngineM.bind_of_ok houtcomes]
      refine ⟨_, rfl, ?_⟩
      rw [List.flatMap_cons, hfindings]
      rfl

theorem analyzeFiles_append (engine : Engine) (fs : FileSystem) (branches : Branches)
    (paths others : List Path) :
    engine.analyzeFiles fs branches (paths ++ others) = do
      let outcomes ← engine.analyzeFiles fs branches paths
      let more ← engine.analyzeFiles fs branches others
      return outcomes ++ more := by
  induction paths with
  | nil => simp [analyzeFiles]
  | cons path paths ih => simp [analyzeFiles, ih]

/-- Whatever can be analysed has been read. -/
theorem exists_sources_of_analyzeFiles {outcomes : List FileOutcome} {after : Store}
    (h : engine.analyzeFiles fs branches paths store = .ok (outcomes, after)) :
    ∃ files, after = (analyzeSources engine.analyzers branches files store).2 := by
  cases hread : engine.readFiles fs paths with
  | error fault =>
    have hstops : ∃ files, engine.analyzeFiles fs branches paths store = .error _ :=
      analyzeFiles_of_error hread
    obtain ⟨files, hfiles⟩ := hstops
    cases hfiles.symm.trans h
  | ok files =>
    cases hwarnings : (printedOn engine.analyzers branches files store).refusal? with
    | some fault => cases (analyzeFiles_of_refused hread hwarnings).symm.trans h
    | none =>
      obtain ⟨others, hothers, -⟩ := analyzeFiles_of_ok hread hwarnings
      cases hothers.symm.trans h
      exact ⟨files, rfl⟩

/-! ### The whole run -/

variable {trunk : Trunk} {planted analyzed : Store} {scan : Scan} {outcomes : List FileOutcome}

theorem plant_of_ok (h : buildTree engine.config store = .ok trunk planted) :
    engine.plant store = .ok (trunk, planted) := by
  rw [plant, h]

theorem buildTree_of_plant (h : engine.plant store = .ok (trunk, planted)) :
    buildTree engine.config store = .ok trunk planted := by
  unfold plant at h
  cases hbuild : buildTree engine.config store with
  | ok built after =>
    rw [hbuild, Except.ok.injEq, Prod.mk.injEq] at h
    rw [h.1, h.2]
  | error fault after =>
    rw [hbuild] at h
    cases h

theorem scan_of_ok (h : (engine.config.scope engine.project).scan fs = .ok scan) (store : Store) :
    (liftM ((engine.config.scope engine.project).scan fs) : EngineM Scan) store =
      .ok (scan, store) := by
  rw [h]
  rfl

theorem run_of_analyzed (hplant : buildTree engine.config store = .ok trunk planted)
    (hscan : (engine.config.scope engine.project).scan fs = .ok scan)
    (hfiles : engine.analyzeFiles fs trunk.branches scan.files planted = .ok (outcomes, analyzed))
    (milliseconds : Int) :
    let search := Store.criticalPaths engine.config.confidenceFloor trunk.branches.root analyzed
    engine.run fs milliseconds store = .ok
      ({ trunk
         result := resultOf scan outcomes trunk.branches.root search.1 milliseconds
         output := outcomes.flatMap FileOutcome.output }, search.2) := by
  unfold run
  rw [EngineM.bind_of_ok (plant_of_ok hplant), EngineM.bind_of_ok (scan_of_ok hscan planted),
    EngineM.bind_of_ok hfiles]
  rfl

theorem exists_of_run_eq_ok {run : Run} {final : Store} {milliseconds : Int}
    (h : engine.run fs milliseconds store = .ok (run, final)) : ∃ planted scan outcomes analyzed,
      engine.plant store = .ok (run.trunk, planted) ∧
      (engine.config.scope engine.project).scan fs = .ok scan ∧
      engine.analyzeFiles fs run.trunk.branches scan.files planted = .ok (outcomes, analyzed) ∧
      let search :=
        Store.criticalPaths engine.config.confidenceFloor run.trunk.branches.root analyzed
      final = search.2 ∧
          run.result = resultOf scan outcomes run.trunk.branches.root search.1 milliseconds := by
  unfold Engine.run at h
  obtain ⟨trunk, planted, hplant, hscanned⟩ := EngineM.exists_of_bind_eq_ok h
  obtain ⟨scan, scanned, hscan, hread⟩ := EngineM.exists_of_bind_eq_ok hscanned
  obtain ⟨outcomes, analyzed, hfiles, hdone⟩ := EngineM.exists_of_bind_eq_ok hread
  cases hresult : (engine.config.scope engine.project).scan fs with
  | error fault =>
    rw [hresult] at hscan
    cases hscan
  | ok found =>
    rw [hresult] at hscan
    cases hscan
    cases hdone
    exact ⟨planted, scan, outcomes, analyzed, hplant, rfl, hfiles, rfl, rfl⟩

theorem warningsOn_of_planted (hplant : buildTree engine.config store = .ok trunk planted)
    (files : List SourceFile) :
    engine.warningsOn files store = printedOn engine.analyzers trunk.branches files planted := by
  rw [warningsOn, plant_of_ok hplant]

theorem run_of_error (hplant : buildTree engine.config store = .ok trunk planted)
    (h : engine.sources fs = .error fault) (milliseconds : Int) :
    ∃ files, engine.run fs milliseconds store =
      .error ((engine.warningsOn files store).refusal?.getD fault) := by
  unfold sources at h
  unfold run
  rw [EngineM.bind_of_ok (plant_of_ok hplant)]
  cases hscan : (engine.config.scope engine.project).scan fs with
  | error error =>
    rw [hscan] at h
    cases h
    refine ⟨[], ?_⟩
    rw [warningsOn_of_planted hplant]
    rfl
  | ok scan =>
    rw [hscan] at h
    have hstops : ∃ files, engine.analyzeFiles fs trunk.branches scan.files planted = .error _ :=
      analyzeFiles_of_error h
    obtain ⟨files, hfiles⟩ := hstops
    refine ⟨files, ?_⟩
    rw [warningsOn_of_planted hplant, ← hscan, EngineM.bind_of_ok (scan_of_ok hscan planted)]
    exact EngineM.bind_of_error hfiles

theorem exists_scan_of_sources (h : engine.sources fs = .ok files) :
    ∃ scan, (engine.config.scope engine.project).scan fs = .ok scan ∧
      engine.readFiles fs scan.files = .ok files := by
  unfold sources at h
  cases hscan : (engine.config.scope engine.project).scan fs with
  | error error =>
    rw [hscan] at h
    cases h
  | ok scan =>
    rw [hscan] at h
    exact ⟨scan, rfl, h⟩

theorem context_of_readFiles {file : SourceFile} (h : engine.readFiles fs paths = .ok files)
    (hfile : file ∈ files) : file.context = CodeContext.ofContent file.content := by
  induction paths generalizing files with
  | nil =>
    cases h
    cases hfile
  | cons path paths ih =>
    obtain ⟨error, -, hrest⟩ | ⟨content, others, -, hrest, rfl⟩ := readFiles_cons_of_ok h
    · exact ih hrest hfile
    · rcases List.mem_cons.mp hfile with rfl | hfile
      · rfl
      · exact ih hrest hfile

theorem context_of_sources {file : SourceFile} (h : engine.sources fs = .ok files)
    (hfile : file ∈ files) :
    file.context = CodeContext.ofContent file.content := by
  obtain ⟨scan, -, hread⟩ := exists_scan_of_sources h
  exact context_of_readFiles hread hfile

theorem run_of_refused (hplant : buildTree engine.config store = .ok trunk planted)
    (h : engine.sources fs = .ok files)
    (hrefused : (engine.warningsOn files store).refusal? = some fault) (milliseconds : Int) :
    engine.run fs milliseconds store = .error fault := by
  obtain ⟨scan, hscan, hread⟩ := exists_scan_of_sources h
  rw [warningsOn_of_planted hplant] at hrefused
  unfold run
  rw [EngineM.bind_of_ok (plant_of_ok hplant), EngineM.bind_of_ok (scan_of_ok hscan planted)]
  exact EngineM.bind_of_error (analyzeFiles_of_refused hread hrefused)

theorem run_of_sources (hplant : buildTree engine.config store = .ok trunk planted)
    (h : engine.sources fs = .ok files)
    (haccepted : (engine.warningsOn files store).refusal? = none) (milliseconds : Int) :
    let analysis := analyzeSources engine.analyzers trunk.branches files planted
    let search := Store.criticalPaths engine.config.confidenceFloor trunk.branches.root analysis.2
    ∃ run, engine.run fs milliseconds store = .ok (run, search.2) ∧
      run.result.criticalPaths = search.1 ∧
      run.result.totalIssues = (findingsOf analysis.1).length := by
  obtain ⟨scan, hscan, hread⟩ := exists_scan_of_sources h
  rw [warningsOn_of_planted hplant] at haccepted
  obtain ⟨outcomes, houtcomes, hfindings⟩ := analyzeFiles_of_ok hread haccepted
  refine ⟨_, run_of_analyzed hplant hscan houtcomes milliseconds, rfl, ?_⟩
  rw [← hfindings]
  simp [resultOf, List.flatMap_map]

/-- A run that has ended has read its files, and the console has accepted its warnings. -/
theorem exists_sources_of_run_eq_ok {milliseconds : Int} {done : Run × Store}
    (h : engine.run fs milliseconds store = .ok done) :
    ∃ files, engine.sources fs = .ok files ∧ (engine.warningsOn files store).refusal? = none := by
  obtain ⟨planted, -, -, -, hplanted, -⟩ := exists_of_run_eq_ok h
  have hplant := buildTree_of_plant hplanted
  cases hsources : engine.sources fs with
  | error fault =>
    obtain ⟨files, hfails⟩ := run_of_error hplant hsources milliseconds
    cases hfails.symm.trans h
  | ok files =>
    refine ⟨files, rfl, ?_⟩
    cases hwarnings : (engine.warningsOn files store).refusal? with
    | none => rfl
    | some fault => cases (run_of_refused hplant hsources hwarnings milliseconds).symm.trans h

theorem runOn_of_ok (hplant : buildTree engine.config store = .ok trunk planted)
    (haccepted : (engine.warningsOn files store).refusal? = none) :
    let analysis := analyzeSources engine.analyzers trunk.branches files planted
    let search := Store.criticalPaths engine.config.confidenceFloor trunk.branches.root analysis.2
    ∃ result, engine.runOn files store = .ok (result, search.2) ∧
      result.criticalPaths = search.1 ∧ result.totalIssues = (findingsOf analysis.1).length := by
  rw [warningsOn_of_planted hplant, printedOn] at haccepted
  unfold runOn
  rw [EngineM.bind_of_ok (plant_of_ok hplant), EngineM.bind_of_ok (EngineM.modifyGet_eq _ planted),
    haccepted]
  exact ⟨_, rfl, rfl, rfl⟩

theorem runOn_of_refused (hplant : buildTree engine.config store = .ok trunk planted)
    (hrefused : (engine.warningsOn files store).refusal? = some fault) :
    engine.runOn files store = .error fault := by
  rw [warningsOn_of_planted hplant, printedOn] at hrefused
  unfold runOn
  rw [EngineM.bind_of_ok (plant_of_ok hplant), EngineM.bind_of_ok (EngineM.modifyGet_eq _ planted),
    hrefused]
  rfl

end RiskScan.Engine

import RiskScan.Analyzer.Registry
import RiskScan.Config.Loading
import RiskScan.CriticalPath
import RiskScan.Engine.SourceAnalysis
import RiskScan.Engine.Trunk
import RiskScan.Scan
/-!
# Running an analysis

An engine has the settings and the analyzers of a project. A run plants a tree, scans the project,
analyses the collected files one after the other in the order of the scan, and looks for critical
paths. A file that cannot be read counts as empty; one whose analysis fails is reported and the run
goes on, unless the console refuses the report.
-/

namespace RiskScan

structure Engine where
  project : Path
  config : Config
  registry : Registry

namespace Engine

/-- An engine, and what was printed while it was set up. -/
structure Prepared where
  engine : Engine
  output : Transcript

/-- The engine for a project with the settings that hold for its directory. -/
def prepare (fs : FileSystem) (project : Path) : Except Fault Prepared := do
  let loaded ← Config.loadNear fs project
  let registry ← (Registry.builtIn loaded.config.cascadeWindow).mapError Signature.WindowError.fault
  return { engine := ⟨project, loaded.config, registry⟩, output := loaded.output }

def unknownAnalyzerWarning (name : String) : String :=
  "[yellow]⚠️  Unknown analyzer in analyzers.disabled: " ++ Markup.escape name ++ "[/yellow]"

/-- A warning for every disabled analyzer that is not registered. -/
def warnings (engine : Engine) : Transcript :=
  (engine.config.disabled.filter fun name => (engine.registry.find? name).isNone).map
    unknownAnalyzerWarning

def analyzers (engine : Engine) : List Analyzer :=
  engine.registry.enabled engine.config.disabled

/-- A path as the findings show it: relative to the project where possible. -/
def displayPath (engine : Engine) (path : Path) : String :=
  ((path.relativeTo? engine.project).getD path).toString

def skippedWarning (path : String) (fault : Fault) : String :=
  "[yellow]⚠️  Skipped " ++ Markup.escape path ++ ": " ++ fault.kind.label ++ ": " ++
    Markup.escape fault.message ++ "[/yellow]"

/-- What came of one file. -/
structure FileOutcome where
  analysis : FileAnalysis
  suppressed : List SuppressedError := []
  output : Transcript := []

abbrev EngineM := StateT Store (Except Fault)

/-- What is printed about the analysis of a file: a warning if it has failed. -/
def skipped (path : String) (analysis : SourceAnalysis) : Transcript :=
  (analysis.fault.map (skippedWarning path)).toList

/-- Makes the outcome of analysing the content of a file. -/
def FileOutcome.ofSource (path : String) (analysis : SourceAnalysis) : FileOutcome :=
  { analysis := analysis.toFileAnalysis path
    output := skipped path analysis }

/-- Analyses a file that is part of a file system. A warning that the console refuses is a fault. -/
def analyzeFile (engine : Engine) (fs : FileSystem) (branches : Branches) (path : Path) :
    EngineM FileOutcome := do
  let shown := engine.displayPath path
  match ← fs.readSource path with
  | .error error => return { analysis := { path := shown }, suppressed := [error] }
  | .ok content =>
    let source := SourceFile.ofContent shown content
    let analysis ← modifyGet (analyzeSource engine.analyzers branches source).run
    match (skipped shown analysis).refusal? with
    | some fault => throw fault
    | none => return .ofSource shown analysis

def analyzeFiles (engine : Engine) (fs : FileSystem) (branches : Branches) :
    List Path → EngineM (List FileOutcome)
  | [] => return []
  | path :: paths => do
    let outcome ← engine.analyzeFile fs branches path
    return outcome :: (← analyzeFiles engine fs branches paths)

def plant (engine : Engine) : EngineM Trunk := fun store =>
  match buildTree engine.config store with
  | .ok trunk store => .ok (trunk, store)
  | .error fault _ => .error fault

/-- What a run gave. -/
structure Run where
  trunk : Trunk
  result : AnalysisResult
  /-- What was printed on the way. -/
  output : Transcript

/-- The result of a run from the outcomes of its files. -/
def resultOf (scan : Scan) (outcomes : List FileOutcome) (root : NodeId)
    (criticalPaths : List (List NodeId)) (milliseconds : Int) : AnalysisResult :=
  let analyses := outcomes.map FileOutcome.analysis
  { root
    criticalPaths
    totalIssues := (analyses.flatMap FileAnalysis.findings).length
    filesAnalyzed := scan.files.length
    milliseconds
    failedFiles := analyses.filter fun analysis => !analysis.success
    suppressedErrors := scan.suppressed ++ outcomes.flatMap FileOutcome.suppressed
    missingRoots := scan.missingRoots }

/-- Runs the analysis of a project, which is said to take some time. -/
def run (engine : Engine) (fs : FileSystem) (milliseconds : Int) : EngineM Run := do
  let trunk ← engine.plant
  let scan ← (engine.config.scope engine.project).scan fs
  let outcomes ← engine.analyzeFiles fs trunk.branches scan.files
  let root := trunk.branches.root
  let criticalPaths ← modifyGet (Store.criticalPaths engine.config.confidenceFloor root).run
  return {
    trunk
    result := resultOf scan outcomes root criticalPaths milliseconds
    output := outcomes.flatMap FileOutcome.output }

end Engine

end RiskScan

import RiskScan.Analyzer
import RiskScan.AnalysisResult
/-!
# Analysing one file

The analyzers see a file one after the other. When one of them fails, the analysis of the file ends
there: the findings returned before, and the nodes that the failing analyzer had already attached to
its branch, still count.
-/

namespace RiskScan.Engine

/-- What the analyzers made of a file: its findings and the failure that ended the analysis, if
any. -/
structure SourceAnalysis where
  findings : List NodeId := []
  fault : Option Fault := none
  deriving DecidableEq, Repr

/-- Runs some analyzers on a file, after `findings` have been made. -/
def runAnalyzers (file : SourceFile) (branches : Branches) :
    List Analyzer → (findings : List NodeId) → StateM Store SourceAnalysis
  | [], findings, store => ({ findings }, store)
  | analyzer :: analyzers, findings, store =>
    let parent := branches.get analyzer.branch
    let attached := (store.node parent).children.length
    match analyzer.analyze file branches store with
    | .ok found store => runAnalyzers file branches analyzers (findings ++ found) store
    | .error fault store =>
      ({ findings := findings ++ (store.node parent).children.drop attached
         fault := some fault }, store)

def analyzeSource (analyzers : List Analyzer) (branches : Branches) (file : SourceFile) :
    StateM Store SourceAnalysis :=
  runAnalyzers file branches analyzers []

def SourceAnalysis.toFileAnalysis (analysis : SourceAnalysis) (path : String) : FileAnalysis :=
  { path
    findings := analysis.findings
    success := analysis.fault.isNone
    message := analysis.fault.map Fault.message }

end RiskScan.Engine

import RiskScan.Store
/-!
# The outcome of a run

What a run found: the tree with its critical paths, how much was looked at, and everything that went
wrong on the way without stopping it. A run passes when it has no critical path.
-/

namespace RiskScan

/-- A failure of the file system from which a run recovered. -/
structure SuppressedError where
  path : String
  /-- What was being done: `scan` or `read`. -/
  operation : String
  message : String
  deriving DecidableEq, Repr

/-- What the analysis of one file came to. Findings that were attached before a failure remain. -/
structure FileAnalysis where
  path : String
  findings : List NodeId := []
  success : Bool := true
  message : Option String := none
  deriving DecidableEq, Repr

structure AnalysisResult where
  root : NodeId
  criticalPaths : List (List NodeId)
  totalIssues : Int
  filesAnalyzed : Int
  milliseconds : Int
  failedFiles : List FileAnalysis := []
  suppressedErrors : List SuppressedError := []
  missingRoots : List String := []
  deriving DecidableEq, Repr

namespace AnalysisResult

def success (result : AnalysisResult) : Bool :=
  result.criticalPaths.isEmpty

def exitCode (result : AnalysisResult) : Nat :=
  if result.success then 0 else 1

end AnalysisResult

end RiskScan

import RiskScan.Analyzer
import RiskScan.Config
/-!
# The trunk of a tree

Before any file is looked at, the tree of a run has a root and the four branches under it. The root
is certain and carries no risk of its own; the severities of the branches are settings.
-/

namespace RiskScan.Engine

def rootNode : Node :=
  { kind := "SECURITY_ANALYSIS_ROOT"
    description := "Comprehensive security vector analysis using tree-of-thought reasoning"
    severity := .info
    evidence := none
    confidence := .one
    reasoning := none }

def branchNode (config : Config) (branch : Branch) : Node :=
  { kind := branch.label
    description := branch.description
    severity := config.branchSeverities.get branch
    evidence := none
    confidence := .zero
    reasoning := none }

/-- A tree and its branches. -/
structure Trunk where
  tree : TreeId
  branches : Branches
  deriving DecidableEq, Repr, Inhabited

def attachBranch (config : Config) (root : NodeId) (branch : Branch) : Analysis NodeId :=
  Analysis.attach root (branchNode config branch)

def buildTree (config : Config) : Analysis Trunk := do
  let root ← modifyGet fun store => store.create rootNode
  let tree ← Analysis.ofStore (Store.plant root)
  let codeExecution ← attachBranch config root .codeExecution
  let stateManagement ← attachBranch config root .stateManagement
  let asyncConcurrency ← attachBranch config root .asyncConcurrency
  let dataFlow ← attachBranch config root .dataFlow
  return {
    tree
    branches := { root, codeExecution, stateManagement, asyncConcurrency, dataFlow } }

end RiskScan.Engine

import RiskScan.Store.Growth
/-!
# The branches of the tree

Every reasoning tree of a run has the same four branches under its root, and each finding belongs to
one of them.
-/

namespace RiskScan

inductive Branch where
  | codeExecution
  | stateManagement
  | asyncConcurrency
  | dataFlow
  deriving DecidableEq, Repr

namespace Branch

/-- In the order in which they stand under the root. -/
def all : List Branch :=
  [.codeExecution, .stateManagement, .asyncConcurrency, .dataFlow]

def label : Branch → String
  | .codeExecution => "CODE_EXECUTION_RISKS"
  | .stateManagement => "STATE_MANAGEMENT_RISKS"
  | .asyncConcurrency => "ASYNC_CONCURRENCY_RISKS"
  | .dataFlow => "DATA_FLOW_RISKS"

def description : Branch → String
  | .codeExecution => "Analysis of dynamic code execution and injection vectors"
  | .stateManagement => "Analysis of state mutation and data flow security"
  | .asyncConcurrency => "Analysis of race conditions and async security vectors"
  | .dataFlow => "Analysis of data exposure and leakage vectors"

/-- The severity of a branch unless the settings say otherwise. -/
def defaultSeverity : Branch → Severity
  | .stateManagement => .medium
  | _ => .high

def ofLabel? (label : String) : Option Branch :=
  all.find? fun branch => branch.label == label

theorem mem_all (branch : Branch) : branch ∈ all := by
  cases branch <;> decide

end Branch

/-- The root of a tree and its four branches. -/
structure Branches where
  root : NodeId
  codeExecution : NodeId
  stateManagement : NodeId
  asyncConcurrency : NodeId
  dataFlow : NodeId
  deriving DecidableEq, Repr, Inhabited

namespace Branches

def get (branches : Branches) : Branch → NodeId
  | .codeExecution => branches.codeExecution
  | .stateManagement => branches.stateManagement
  | .asyncConcurrency => branches.asyncConcurrency
  | .dataFlow => branches.dataFlow

def all (branches : Branches) : List NodeId :=
  Branch.all.map branches.get

end Branches

end RiskScan

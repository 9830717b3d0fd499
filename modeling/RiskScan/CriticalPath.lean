import RiskScan.Store.Compound
import RiskScan.Store.Outline
/-!
# Critical paths

A node is critical when its compound severity is and it is held with at least a given confidence. A
path is critical when some node on it is; the nodes are asked in order, and the first critical one
ends the asking.
-/

namespace RiskScan

def defaultConfidenceFloor : Float := 0.8

namespace Store

def isCriticalNode (floor : Float) (id : NodeId) : StateM Store Bool := do
  let severity ← compound id
  let node := (← get).node id
  return severity = .critical ∧ floor ≤ node.confidence.value

def isCriticalPath (floor : Float) : List NodeId → StateM Store Bool
  | [] => return false
  | id :: path => do
    if ← isCriticalNode floor id then return true
    isCriticalPath floor path

def criticalAmong (floor : Float) : List (List NodeId) → StateM Store (List (List NodeId))
  | [] => return []
  | path :: paths => do
    let critical ← isCriticalPath floor path
    let others ← criticalAmong floor paths
    return if critical then path :: others else others

/-- The critical paths from a node to the leaves below it. -/
def criticalPaths (floor : Float) (root : NodeId) : StateM Store (List (List NodeId)) := do
  criticalAmong floor ((← get).paths root)

end Store

end RiskScan

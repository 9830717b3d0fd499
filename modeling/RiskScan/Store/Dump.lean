import RiskScan.Store.Compound
import RiskScan.Store.Outline
/-!
# Dumping a node

A dump holds everything about a node that other programs may want to read, with the dumps of its
children in place of the children. Taking one asks every node for its compound severity, each before
its children.
-/

namespace RiskScan

def Node.shown (node : Node) : String :=
  "ThoughtNode(id=" ++ (match node.slot? with
    | some slot => toString slot
    | none => "None") ++ ", type=" ++ Text.quoted node.kind ++ ", severity=" ++
    node.severity.label ++ ")"

structure DumpFields where
  id : Option Nat
  kind : String
  description : String
  severity : Severity
  compound : Severity
  evidence : Option String
  confidence : Confidence
  reasoning : Option String
  mitigations : List String
  dependencies : List Nat

inductive Dump where
  | node (fields : DumpFields) (children : List Dump)

namespace Store

def dumpFields (store : Store) (id : NodeId) (compound : Severity) : DumpFields :=
  let node := store.node id
  { id := node.slot?
    kind := node.kind
    description := node.description
    severity := node.severity
    compound := compound
    evidence := node.evidence
    confidence := node.confidence
    reasoning := node.reasoning
    mitigations := node.mitigations
    dependencies := node.dependencies }

end Store

mutual

def Outline.dump : Outline → StateM Store Dump
  | .node id children => do
    let severity ← Store.compound id
    let fields := (← get).dumpFields id severity
    return .node fields (← Outline.dumpAll children)

def Outline.dumpAll : List Outline → StateM Store (List Dump)
  | [] => return []
  | outline :: outlines => do
    let first ← outline.dump
    return first :: (← Outline.dumpAll outlines)

end

def Store.dump (id : NodeId) : StateM Store Dump := do
  ((← get).outline id).dump

end RiskScan

import RiskScan.Console.Markup
import RiskScan.Store.Compound
import RiskScan.Store.Outline
/-!
# Rendering a node

A node is rendered as markup, one line for the node itself and one for each thing known about it,
with its children indented below. The compound severity is shown beside the severity where they
differ.
-/

namespace RiskScan

open Markup

def Severity.style : Severity → String
  | .critical => "red"
  | .high => "yellow"
  | .medium => "cyan"
  | .low => "blue"
  | .info => "dim"

/-- Two blanks for each level; levels below zero count as zero. -/
def indentation (level : Int) : String :=
  "".pushn ' ' (2 * level).toNat

def detailLine (level : Int) (style label text : String) : String :=
  indentation level ++ "  [" ++ style ++ "]" ++ label ++ ": " ++ text ++ "[/" ++ style ++ "]\n"

/-- A detail that is left out when there is nothing to say. -/
def optionalDetail (level : Int) (label : String) : Option String → String
  | none => ""
  | some text => if text.isEmpty then "" else detailLine level "dim" label (escape text)

def Node.headline (node : Node) (level : Int) (compound : Severity) : String :=
  let style := node.severity.style
  let label :=
    if compound = node.severity then node.severity.label
    else node.severity.label ++ " → " ++ compound.label
  indentation level ++ "[" ++ style ++ "]\\[" ++ label ++ "] " ++ escape node.kind ++ ": " ++
    escape node.description ++ "[/" ++ style ++ "]\n"

/-- The lines of a node without those of its children. -/
def Node.lines (node : Node) (level : Int) (compound : Severity) : String :=
  node.headline level compound ++
    optionalDetail level "Evidence" node.evidence ++
    optionalDetail level "Reasoning" node.reasoning ++
    (if 0.0 < node.confidence.value then
      detailLine level "dim" "Confidence" node.confidence.percent else "") ++
    String.join (node.mitigations.map fun mitigation =>
      detailLine level "dim green" "Mitigation" (escape mitigation))

mutual

def Outline.render (level : Int) : Outline → StateM Store String
  | .node id children => do
    let compound ← Store.compound id
    let own := ((← get).node id).lines level compound
    return own ++ (← Outline.renderAll (level + 1) children)

def Outline.renderAll (level : Int) : List Outline → StateM Store String
  | [] => return ""
  | outline :: outlines => do
    let first ← outline.render level
    return first ++ (← Outline.renderAll level outlines)

end

def Store.render (level : Int) (id : NodeId) : StateM Store String := do
  ((← get).outline id).render level

end RiskScan

import RiskScan.Pattern
import RiskScan.Store.Growth
import RiskScan.Template
/-!
# Signatures

A signature is a pattern together with everything needed to report its matches: a severity, texts
for the reader, and a template for the evidence that names the file and the number of matches.
-/

namespace RiskScan

structure Signature where
  name : String
  pattern : Pattern
  severity : Severity
  description : String
  reasoning : String
  /-- Checked when a finding is made. -/
  confidence : Value
  evidence : String := "Found \x7bcount\x7d instances in \x7bfile\x7d"
  mitigations : List String := []

namespace Signature

def find (signature : Signature) (content : String) : List String :=
  signature.pattern.find content

def count (signature : Signature) (content : String) : Nat :=
  (signature.find content).length

/-- The finding for a number of matches in a file. -/
def finding (signature : Signature) (count : Int) (file : String) : Except Fault Node := do
  let values := [("count", FieldValue.number count), ("file", FieldValue.text file)]
  let evidence ← (Template.fill values signature.evidence).mapError TemplateError.fault
  let node ← (Draft.node {
    kind := signature.name
    description := signature.description
    severity := .text signature.severity.label
    evidence := some evidence
    confidence := signature.confidence }).mapError NodeError.fault
  return { node with
    reasoning := some signature.reasoning
    mitigations := signature.mitigations }

end Signature

end RiskScan

import RiskScan.Proofs.Engine.Running
import RiskScan.Proofs.Outcome
import RiskScan.Proofs.Report.Layout
/-!
# Warnings that are accepted

The warning of a skipped file shows a path and a message, each of them escaped on its own. Escaping
leaves no tag in either, so the console meets the tags of the warning itself, and perhaps one that
begins in the path and ends in the message. Only such a tag can make it refuse the warning. So a run
on files whose paths leave no bracket open never ends at a warning.
-/

namespace RiskScan

namespace Markup

/-! ### The tags of some markup -/

variable {tag : Tag}

end Markup

namespace Engine

open Markup

variable {path : String} {fault : Fault}

variable {engine : Engine} {files : List SourceFile}

/-- Here a tag begins in the path and ends in the message. -/
example : refusal? (skippedWarning "src/[/a.js" ⟨.value, "unexpected ]"⟩) ≠ none := by
  decide +kernel

end Engine

end RiskScan

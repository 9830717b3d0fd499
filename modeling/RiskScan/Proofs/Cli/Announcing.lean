import RiskScan.Cli.Analyze
import RiskScan.Proofs.Engine.Running
import RiskScan.Proofs.Scan.Considered
/-!
# Announced roots and walked roots

The roots are gone through twice: by the command, which announces every one that is a directory, and
by the scan, which stops once it has collected enough files. So the announced roots are those that
the scan walks and behind them the directories it does not get to, and the roots reported as missing
are those among the roots it got to.
-/

namespace RiskScan.Cli

open Session

variable {fs : FileSystem} {project : Path} {roots : List String} {printed : Transcript}

/-- What is printed before the roots are announced. -/
def opening (prepared : Engine.Prepared) : Transcript :=
  Report.header ++ (prepared.output ++ prepared.engine.warnings ++ [buildingLine])

end RiskScan.Cli

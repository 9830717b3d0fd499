import RiskScan.Cli
import RiskScan.Proofs.Config.RoundTrip
import RiskScan.Proofs.FileSystem.Directories
/-!
# Writing the default settings

The command that writes the default settings says that it has done so whenever there is something at
their path afterwards. Whether saving has succeeded does not reach it. So it tells the truth unless
saving fails and there is something at the path all the same: what was there before and could not be
opened, or the beginning of a file whose writing has broken off. Then it claims success, if only the
console accepts the report of the failure.
-/

namespace RiskScan.Cli

variable {fs after : FileSystem} {directory : Path} {force : Bool} {inode : Inode}
  {failure : AccessError × Path}

/-- Nothing is at the path of the settings, or it is to be overwritten. -/
def Proceeds (fs : FileSystem) (directory : Path) (force : Bool) : Prop :=
  ∃ isPresent, fs.isPresent (directory.child Config.fileName) = .ok isPresent ∧
    (isPresent = true → force = true)

end RiskScan.Cli

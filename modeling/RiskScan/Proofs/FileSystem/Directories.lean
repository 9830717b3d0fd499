import RiskScan.FileSystem.Directories
import RiskScan.Proofs.FileSystem.Following
/-!
# Directories that are there

There is something of a name in a directory only if the directory is there, and making the
directories on a path that leads to one changes nothing.
-/

namespace RiskScan.FileSystem

variable {fs : FileSystem} {path : Path}

end RiskScan.FileSystem

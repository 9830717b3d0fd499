import RiskScan.Scan
/-!
# Walks without a cap

What a walk would find if the number of files were not bounded is a list by recursion on the levels,
in the order of the walk.
-/

namespace RiskScan

namespace Path

theorem join_nil (path : Path) : path.join { names := [] } = path := by
  simp [join, isAbsolute]

theorem join_cons (path : Path) (name : String) (rest : List String) :
    path.join { names := name :: rest } = (path.child name).join { names := rest } := by
  simp [join, isAbsolute, child]

end Path

namespace Scope

variable (scope : Scope) (fs : FileSystem)

/-- The ways from a directory to the files that an entry of it adds, where `inner` gives those from
a directory further down. -/
def foundAt (inner : Path → List (List String)) (directory : Path) (entry : String × Inode) :
    List (List String) :=
  if scope.skips entry.1 then []
  else
    match entryIsDirectory fs (directory.child entry.1) entry.2 with
    | .error _ => []
    | .ok true => (inner (directory.child entry.1)).map (entry.1 :: ·)
    | .ok false => if scope.hasExtension entry.1 then [[entry.1]] else []

/-- The ways from a directory to the files that a walk with enough room finds below it. -/
def found : (levels : Nat) → (directory : Path) → List (List String)
  | 0, _ => []
  | levels + 1, directory =>
    match fs.list directory with
    | .error _ => []
    | .ok entries => entries.flatMap (scope.foundAt fs (found levels) directory)

/-- The files to which some ways lead. -/
def filesAt (directory : Path) (ways : List (List String)) : List Path :=
  ways.map fun names => directory.join { names }

end Scope

end RiskScan

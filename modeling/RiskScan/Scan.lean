import RiskScan.AnalysisResult
import RiskScan.Config
import RiskScan.FileSystem
import RiskScan.Text.Utf8
/-!
# Scanning a project

A scan walks some root directories of a project one after the other and collects source files, a
directory's entries in the order of their names. It is bounded twice: in the number of directory
levels and in the number of files. A directory that cannot be listed, or an entry whose nature
cannot be told, is noted and passed over, and so is a file that cannot be read.

Each walk gets the room that is left for files and says what it collected, so the walks of the
entries of a directory, and those of the roots, only have to be strung together.
-/

namespace RiskScan

/-- What to scan, and how far. -/
structure Scope where
  project : Path
  roots : List String
  extensions : List String
  skipDirs : List String
  /-- How many levels of directories are listed, the root's own included. -/
  levels : Nat
  maxFiles : Nat

def Config.scope (config : Config) (project : Path) : Scope :=
  { project
    roots := config.roots
    extensions := config.extensions
    skipDirs := config.skipDirs
    levels := config.maxDepth + 1
    maxFiles := config.maxFiles }

/-- What a walk collected and what it had to pass over. -/
structure Haul where
  files : List Path := []
  suppressed : List SuppressedError := []
  deriving DecidableEq, Repr

namespace Haul

protected def append (first second : Haul) : Haul :=
  ⟨first.files ++ second.files, first.suppressed ++ second.suppressed⟩

instance : Append Haul := ⟨Haul.append⟩

@[simp] theorem files_append (first second : Haul) :
    (first ++ second).files = first.files ++ second.files := rfl

@[simp] theorem suppressed_append (first second : Haul) :
    (first ++ second).suppressed = first.suppressed ++ second.suppressed := rfl

end Haul

def SuppressedError.ofAccess (operation : String) (path : Path) (error : AccessError) :
    SuppressedError :=
  ⟨path.toString, operation, error.message⟩

namespace Scope

def skips (scope : Scope) (name : String) : Bool :=
  scope.skipDirs.contains name || name.startsWith "."

def hasExtension (scope : Scope) (name : String) : Bool :=
  scope.extensions.any fun extension => extension.toList.isSuffixOf name.toList

/-- Whether an entry leads to a directory. For a link this takes following it. -/
def entryIsDirectory (fs : FileSystem) (path : Path) : Inode → Except AccessError Bool
  | .directory _ => .ok true
  | .file _ => .ok false
  | .link _ =>
    match fs.isDirectory path with
    | .error .notFound => .ok false
    | answer => answer

/-- Walks the entries of a directory, with `walk` for those that are directories. -/
def walkEntries (scope : Scope) (fs : FileSystem) (walk : (room : Nat) → Path → Haul)
    (directory : Path) : (room : Nat) → List (String × Inode) → Haul
  | _, [] => {}
  | 0, _ => {}
  | room + 1, (name, inode) :: entries =>
    if scope.skips name then walkEntries scope fs walk directory (room + 1) entries
    else
      let path := directory.child name
      let found : Haul :=
        match entryIsDirectory fs path inode with
        | .error error => { suppressed := [.ofAccess "scan" path error] }
        | .ok true => walk (room + 1) path
        | .ok false => if scope.hasExtension name then { files := [path] } else {}
      found ++ walkEntries scope fs walk directory (room + 1 - found.files.length) entries

/-- A walk of entries collects no more files than there is room for. -/
theorem length_files_walkEntries_le (scope : Scope) (fs : FileSystem) {walk : Nat → Path → Haul}
    (hwalk : ∀ room path, (walk room path).files.length ≤ room) (directory : Path)
    (room : Nat) (entries : List (String × Inode)) :
    (scope.walkEntries fs walk directory room entries).files.length ≤ room := by
  induction entries generalizing room with
  | nil => cases room <;> simp [walkEntries]
  | cons entry entries ih =>
    obtain ⟨name, inode⟩ := entry
    cases room with
    | zero => simp [walkEntries]
    | succ room =>
      unfold walkEntries
      split
      · exact ih (room + 1)
      · dsimp only
        rw [Haul.files_append, List.length_append]
        generalize hfound : (match entryIsDirectory fs (directory.child name) inode with
          | .error error =>
            ({ suppressed := [.ofAccess "scan" (directory.child name) error] } : Haul)
          | .ok true => walk (room + 1) (directory.child name)
          | .ok false =>
            if scope.hasExtension name then { files := [directory.child name] } else {}) = found
        have hlength : found.files.length ≤ room + 1 := by
          subst hfound
          split
          · simp
          · exact hwalk _ _
          · split <;> simp
        have hrest := ih (room + 1 - found.files.length)
        omega

def walk (scope : Scope) (fs : FileSystem) : (levels : Nat) → (room : Nat) → Path → Haul
  | 0, _, _ => {}
  | _, 0, _ => {}
  | levels + 1, room + 1, directory =>
    match fs.list directory with
    | .error error => { suppressed := [.ofAccess "scan" directory error] }
    | .ok entries => walkEntries scope fs (scope.walk fs levels) directory (room + 1) entries

theorem length_files_walk_le (scope : Scope) (fs : FileSystem) (levels room : Nat)
    (directory : Path) : (scope.walk fs levels room directory).files.length ≤ room := by
  induction levels generalizing room directory with
  | zero => simp [walk]
  | succ levels ih =>
    cases room with
    | zero => simp [walk]
    | succ room =>
      unfold walk
      split
      · simp
      · exact length_files_walkEntries_le scope fs ih directory (room + 1) _

end Scope

/-- What a scan of all roots gave. -/
structure Scan where
  files : List Path := []
  missingRoots : List String := []
  suppressed : List SuppressedError := []
  deriving DecidableEq, Repr

namespace Scan

def addMissing (root : String) (scan : Scan) : Scan :=
  { scan with missingRoots := root :: scan.missingRoots }

def addHaul (haul : Haul) (scan : Scan) : Scan :=
  { scan with
    files := haul.files ++ scan.files
    suppressed := haul.suppressed ++ scan.suppressed }

/-- The records of a later scan continue those of an earlier one, while the files are its own. -/
def following (earlier later : Scan) : Scan :=
  { later with
    missingRoots := earlier.missingRoots ++ later.missingRoots
    suppressed := earlier.suppressed ++ later.suppressed }

end Scan

namespace Scope

def rootPath (scope : Scope) (root : String) : Path :=
  scope.project.join (.ofString root)

/-- Scans some roots with room for a number of files. A root whose nature cannot be told ends the
scan. -/
def scanRoots (scope : Scope) (fs : FileSystem) : (room : Nat) → List String → Except Fault Scan
  | _, [] => .ok {}
  | 0, _ => .ok {}
  | room + 1, root :: roots => do
    let path := scope.rootPath root
    match fs.hasDirectory path with
    | .error error => throw (error.fault path)
    | .ok false => return (← scanRoots scope fs (room + 1) roots).addMissing root
    | .ok true =>
      let haul := scope.walk fs scope.levels (room + 1) path
      return (← scanRoots scope fs (room + 1 - haul.files.length) roots).addHaul haul

/-- All roots together give no more files than there is room for. -/
theorem length_files_scanRoots_le {scope : Scope} {fs : FileSystem} {room : Nat}
    {roots : List String} {scan : Scan} (h : scope.scanRoots fs room roots = .ok scan) :
    scan.files.length ≤ room := by
  induction roots generalizing room scan with
  | nil =>
    cases h
    simp
  | cons root roots ih =>
    cases room with
    | zero =>
      cases h
      simp
    | succ room =>
      unfold scanRoots at h
      dsimp only at h
      split at h
      · cases h
      · cases hrest : scope.scanRoots fs (room + 1) roots with
        | error fault => rw [hrest] at h; cases h
        | ok rest =>
          rw [hrest] at h
          cases h
          have hle := ih hrest
          exact hle
      · generalize hhaul : scope.walk fs scope.levels (room + 1) (scope.rootPath root) = haul at h
        have hlength : haul.files.length ≤ room + 1 := hhaul ▸ length_files_walk_le ..
        cases hrest : scope.scanRoots fs (room + 1 - haul.files.length) roots with
        | error fault => rw [hrest] at h; cases h
        | ok rest =>
          rw [hrest] at h
          cases h
          have hle := ih hrest
          simp only [Scan.addHaul, List.length_append]
          omega

def scan (scope : Scope) (fs : FileSystem) : Except Fault Scan :=
  scope.scanRoots fs scope.maxFiles scope.roots

end Scope

/-- The text of a source file, read leniently, or the note that it could not be read. -/
def FileSystem.readSource (fs : FileSystem) (path : Path) :
    Except Fault (Except SuppressedError String) :=
  match fs.read path with
  | .ok octets =>
    .ok (.ok (String.ofList
      (Text.unifyNewlines (Text.Utf8.decodeLenient (octets.map UInt8.toNat)))))
  | .error error =>
    if error.kind = .os then .ok (.error (.ofAccess "read" path error))
    else .error (error.fault path)

end RiskScan

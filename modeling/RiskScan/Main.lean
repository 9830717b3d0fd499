import RiskScan.Cli
import RiskScan.FileSystem.Directories
/-!
# The program

The program copies the part of the real file system that an invocation looks at, runs the invocation
on the copy, prints what it printed, and writes the settings file if the invocation changed it. The
copy holds the settings files above the current directory, and for an analysis the roots down to the
deepest level that is scanned, with the contents of the files that the scan collects.
-/

namespace RiskScan.Program

/-- A path as the copy has it, from a path of the real file system. -/
def pathAt (text : String) : Path := .ofString text

/-- Adds those of some entries that are not there yet. -/
def mergeEntries (present : List (String × Inode)) : List (String × Inode) → List (String × Inode)
  | [] => present
  | (name, inode) :: entries =>
    mergeEntries
      (if (Inode.lookup? name present).isSome then present else Inode.put name inode present)
        entries

def addDirectory (fs : FileSystem) (path : Path) (entries : List (String × Inode)) : FileSystem :=
  match fs.makeDirectories path with
  | .error _ => fs
  | .ok fs =>
    match fs.place path with
    | .ok (.occupied location (.directory present)) =>
      { fs with top := Inode.putAt (.directory (mergeEntries present entries)) location fs.top }
    | _ => fs

def addFile (fs : FileSystem) (path : Path) (octets : List UInt8) : FileSystem :=
  match fs.makeDirectories path.parent with
  | .error _ => fs
  | .ok made => (made.write path octets).toOption.getD made

/-- Makes an access to the copy fail as it failed in the real file system. -/
def addFailure (fs : FileSystem) (access : Access) (path : Path) (error : IO.Error) : FileSystem :=
  { fs with failing := (access, path, .reported (toString error)) :: fs.failing }

def copyFile (fs : FileSystem) (path : Path) : IO FileSystem := do
  try
    let octets ← IO.FS.readBinFile path.toString
    return addFile fs path octets.toList
  catch error => return addFailure fs .read path error

/-- What stands for an entry whose nature cannot be told: a link that leads nowhere. -/
def brokenLink (name : String) (error : IO.Error) : Inode :=
  match error with
  | .noFileOrDirectory .. => .link { names := [name, name] }
  | _ => .link { names := [name] }

/-- Copies the names in a directory, down to a number of levels. -/
def copyDirectory (scope : Scope) :
    (levels : Nat) → (path : Path) → FileSystem → IO FileSystem
  | 0, _, fs => return fs
  | levels + 1, path, fs => do
    try
      let directory := (← IO.currentDir) / path.toString
      let mut fs := fs
      let mut entries : List (String × Inode) := []
      let mut inner : List Path := []
      for entry in ← directory.readDir do
        unless scope.skips entry.fileName do
          let inode ← try
              match (← entry.path.metadata).type with
              | .dir =>
                inner := path.child entry.fileName :: inner
                pure (Inode.directory [])
              | _ => pure (Inode.file [])
            catch error => pure (brokenLink entry.fileName error)
          entries := (entry.fileName, inode) :: entries
      fs := addDirectory fs path entries
      for child in inner do
        fs ← copyDirectory scope levels child fs
      return fs
    catch error => return addFailure (addDirectory fs path []) .scan path error

/-- Copies the settings files of a directory and of those above it. -/
def copySettings (directory : Path) : IO FileSystem := do
  let mut fs := addDirectory {} directory []
  for above in directory.ascent do
    let path := above.child Config.fileName
    let place := (← IO.currentDir) / path.toString
    if ← place.pathExists then
      if ← place.isDir then fs := addDirectory fs path [] else fs ← copyFile fs path
  return fs

def copyScope (directory : Path) (fs : FileSystem) : IO FileSystem := do
  let config := ((Config.loadNear fs directory).toOption.getD {}).config
  let scope := config.scope directory
  let mut fs := fs
  for root in config.roots do
    let path := scope.rootPath root
    if ← ((← IO.currentDir) / path.toString).isDir then
      fs ← copyDirectory scope scope.levels path fs
  for file in ((scope.scan fs).toOption.getD {}).files do
    fs ← copyFile fs file
  return fs

def looksAtSources (arguments : List String) : Bool :=
  match Cli.Request.ofArguments arguments with
  | .ok (.run .analyze _) => true
  | _ => false

/-- Writes the settings file of a directory if the copy has another one than before. -/
def storeSettings (directory : Path) (before after : FileSystem) : IO Unit := do
  let path := directory.child Config.fileName
  match before.octets path, after.octets path with
  | .ok old, .ok new =>
    if old ≠ new then IO.FS.writeBinFile path.toString ⟨new.toArray⟩
  | _, .ok new => IO.FS.writeBinFile path.toString ⟨new.toArray⟩
  | _, _ => pure ()

def printOutcome (outcome : Cli.Outcome) : IO Unit := do
  for (stream, text) in outcome.output do
    match stream with
    | .standard => IO.print text
    | .error => IO.eprint text
  match outcome.fault with
  | some fault => IO.eprintln (fault.kind.label ++ ": " ++ fault.message)
  | none => pure ()

def invoke (arguments : List String) : IO UInt32 := do
  let directory := pathAt (← IO.currentDir).toString
  let start ← IO.monoMsNow
  let mut fs ← copySettings directory
  if looksAtSources arguments then fs ← copyScope directory fs
  let milliseconds := (← IO.monoMsNow) - start
  let outcome := Cli.run { programName := "thoughtscan", fs, directory, milliseconds } arguments
  storeSettings directory fs outcome.fs
  printOutcome outcome
  return outcome.exitCode.toUInt32

end RiskScan.Program

def main (arguments : List String) : IO UInt32 :=
  RiskScan.Program.invoke arguments

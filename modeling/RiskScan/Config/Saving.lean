import RiskScan.Config.Loading
import RiskScan.FileSystem.Directories
import RiskScan.Yaml.Writer
/-!
# Saving settings

Saving writes all settings to a file, after making the directories it lies in. If that fails, the
reason is printed, unless the console refuses it. A file that could be opened is then left with as
much as has been written.
-/

namespace RiskScan.Config

def document (config : Config) : String :=
  String.ofList (Yaml.write config.toEntries)

/-- What became of an attempt to save. -/
structure Saved where
  fs : FileSystem
  succeeded : Bool
  output : Transcript

/-- Tries to write a file together with the directories it lies in. An error comes with its path. -/
def attemptWithParents (fs : FileSystem) (path : Path) (octets : List UInt8) :
    FileSystem × Option (AccessError × Path) :=
  match fs.makeDirectories path.parent with
  | .error failure => (fs, some failure)
  | .ok made =>
    let attempt := made.attemptWrite path octets
    (attempt.fs, attempt.error?.map fun error => (error, path))

/-- What an attempt to save leaves, whether or not it succeeds. -/
def leftBySaving (fs : FileSystem) (config : Config) (path : Path) : FileSystem :=
  (attemptWithParents fs path config.document.toUTF8.toList).1

/-- The message is shown as it is, so markup in the path has its effect. -/
def saveError (path : Path) (message : String) : String :=
  "[red]Error: Failed to save config to " ++ path.toString ++ ": " ++ message ++ "[/red]"

/-- What a failure to save raises: nothing if it can be printed. -/
def faultOf? (path : Path) (failure : AccessError × Path) : Option Fault :=
  let (error, place) := failure
  if error.kind = .os then Markup.refusal? (saveError path (error.describe place))
  else some (error.fault place)

def save (fs : FileSystem) (config : Config) (path : Path) : Except Fault Saved :=
  match attemptWithParents fs path config.document.toUTF8.toList with
  | (fs, none) => .ok { fs, succeeded := true, output := [] }
  | (fs, some (error, place)) =>
    match faultOf? path (error, place) with
    | some fault => .error fault
    | none => .ok { fs, succeeded := false, output := [saveError path (error.describe place)] }

def saveDefault (fs : FileSystem) (directory : Path) : Except Fault Saved :=
  save fs {} (directory.child fileName)

end RiskScan.Config

import RiskScan.Cli.Command
import RiskScan.Cli.Outcome
import RiskScan.Config.Saving
import RiskScan.Console.Table
import RiskScan.Decimal.Fixed
/-!
# The commands about settings

One command shows the settings that hold for the current directory, the other writes a file with the
default settings into it. A file that is already there is only overwritten on demand.
-/

namespace RiskScan.Cli

def listText (items : List String) : String :=
  ", ".intercalate items

def branchRow (config : Config) (branch : Branch) : List String :=
  ["Branch " ++ branch.label, (config.branchSeverities.get branch).label]

def settingRows (config : Config) : List (List String) :=
  let disabled := listText config.disabled
  [["Scan roots", listText config.roots],
    ["Extensions", listText config.extensions],
    ["Skipped directories", listText config.skipDirs ++ " (and dot-directories)"],
    ["Max depth", toString config.maxDepth],
    ["Max files", toString config.maxFiles],
    ["Confidence floor", Decimal.fixed 2 config.confidenceFloor],
    ["Cascade window", toString config.cascadeWindow ++ " lines"]] ++
  Branch.all.map (branchRow config) ++
  [["Disabled analyzers", if disabled.isEmpty then "none" else disabled]]

def configFileLine : Option Path → String
  | some path => "[bold cyan]Config file:[/bold cyan] " ++ Markup.escape path.toString
  | none => "[bold cyan]Config file:[/bold cyan] none (built-in defaults)"

/-- What is shown of some settings and of the file they come from. -/
def settingsText (path : Option Path) (config : Config) : String :=
  Transcript.text ["\n[cyan]⚙️  Thoughtscan Configuration[/cyan]\n", configFileLine path] ++
    Console.Table.render ["Setting", "Value"] (settingRows config) ++
    Transcript.text ["\n[bold cyan]Thoughtscan Version:[/bold cyan] v" ++ version]

def Outcome.failing (fs : FileSystem) (fault : Fault) : Outcome :=
  { exitCode := 1, output := [], fs, fault := some fault }

/-- The settings that hold for a directory, together with their file. -/
def loadWithPath (fs : FileSystem) (directory : Path) :
    Except Fault (Option Path × Config.Loaded) := do
  let path ← Config.find fs directory
  let loaded ← match path with
    | some path => Config.load fs path
    | none => .ok {}
  return (path, loaded)

def showSettings (fs : FileSystem) (directory : Path) : Outcome :=
  match loadWithPath fs directory with
  | .ok (path, loaded) =>
    .printing fs (Transcript.text loaded.output ++ settingsText path loaded.config) 0
  | .error fault => .failing fs fault

def alreadyPresentLine : String :=
  "[yellow]⚠️  " ++ Config.fileName ++ " already exists (use --force to overwrite)[/yellow]"

def createdLine (path : Path) : String :=
  "[green]✅ Created " ++ Markup.escape path.toString ++ "[/green]"

/-- Writes the default settings and says so if there is something at the path afterwards. -/
def writeSettings (fs : FileSystem) (directory : Path) : Outcome :=
  let path := directory.child Config.fileName
  match Config.saveDefault fs directory with
  | .error fault => .failing (Config.leftBySaving fs {} path) fault
  | .ok saved =>
    match saved.fs.isPresent path with
    | .error error =>
      { Outcome.printing saved.fs (Transcript.text saved.output) 1 with
        fault := some (error.fault path) }
    | .ok true => .printing saved.fs (Transcript.text (saved.output ++ [createdLine path])) 0
    | .ok false => .printing saved.fs (Transcript.text saved.output) 1

def initSettings (fs : FileSystem) (directory : Path) (force : Bool) : Outcome :=
  let path := directory.child Config.fileName
  match fs.isPresent path with
  | .error error => .failing fs (error.fault path)
  | .ok isPresent =>
    if isPresent && !force then .printing fs (Transcript.text [alreadyPresentLine]) 1
    else writeSettings fs directory

end RiskScan.Cli

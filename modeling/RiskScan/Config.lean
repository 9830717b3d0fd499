import RiskScan.Branch
/-!
# Settings

Every setting has a default, and a setting that is missing or null keeps it. Numbers are clamped to
the range in which they make sense: depth and window are not negative, at least one file is
collected, and the confidence floor lies between 0 and 1. A floor that is no number stays as it is,
and no confidence reaches it.
-/

namespace RiskScan

/-- A severity for each branch. -/
structure BranchSeverities where
  codeExecution : Severity := Branch.defaultSeverity .codeExecution
  stateManagement : Severity := Branch.defaultSeverity .stateManagement
  asyncConcurrency : Severity := Branch.defaultSeverity .asyncConcurrency
  dataFlow : Severity := Branch.defaultSeverity .dataFlow
  deriving DecidableEq, Repr

namespace BranchSeverities

def get (severities : BranchSeverities) : Branch → Severity
  | .codeExecution => severities.codeExecution
  | .stateManagement => severities.stateManagement
  | .asyncConcurrency => severities.asyncConcurrency
  | .dataFlow => severities.dataFlow

def set (severities : BranchSeverities) (branch : Branch) (severity : Severity) :
    BranchSeverities :=
  match branch with
  | .codeExecution => { severities with codeExecution := severity }
  | .stateManagement => { severities with stateManagement := severity }
  | .asyncConcurrency => { severities with asyncConcurrency := severity }
  | .dataFlow => { severities with dataFlow := severity }

theorem get_set (severities : BranchSeverities) (branch other : Branch) (severity : Severity) :
    (severities.set branch severity).get other =
      if other = branch then severity else severities.get other := by
  cases branch <;> cases other <;> rfl

end BranchSeverities

structure Config where
  version : String := "1.0.0"
  /-- The directories to scan, relative to the project. -/
  roots : List String := ["src", "assets/js", "scripts"]
  extensions : List String := [".js", ".jsx", ".ts", ".tsx"]
  skipDirs : List String := ["node_modules"]
  maxDepth : Nat := 10
  maxFiles : Nat := 100
  confidenceFloor : Float := 0.8
  /-- How many line ends may lie between two publishing calls of a cascade. -/
  cascadeWindow : Nat := 10
  branchSeverities : BranchSeverities := {}
  /-- The names of analyzers that do not run. -/
  disabled : List String := []
  deriving DecidableEq

inductive SettingError where
  | topLevel
  | notMapping (key kind : String)
  | notList (key kind : String)
  | scanBound (error : NumberError)
  | analysis (error : NumberError)
  /-- A number too large for any setting is reported as it is. -/
  | overflow (error : NumberError)
  | unknownBranch (name : String)
  | severity (error : SeverityError)
  /-- What has no text is reported as it is. -/
  | text (error : NumberError)
  deriving DecidableEq, Repr

namespace SettingError

def message : SettingError → String
  | .topLevel => "top-level YAML value must be a mapping"
  | .notMapping key kind => "'" ++ key ++ "' must be a mapping, got " ++ kind
  | .notList key kind => "'" ++ key ++ "' must be a list, got " ++ kind
  | .scanBound error => "Invalid scan bound: " ++ error.message
  | .analysis error => "Invalid analysis setting: " ++ error.message
  | .overflow error => error.message
  | .unknownBranch name => "Unknown branch: " ++ name
  | .severity error => error.message
  | .text error => error.message

def kind : SettingError → FaultKind
  | .overflow _ => .overflow
  | _ => .value

def fault (error : SettingError) : Fault :=
  ⟨error.kind, error.message⟩

/-- A number that cannot be read, as an error of the section it stands in. -/
def ofNumber (inSection : NumberError → SettingError) (error : NumberError) : SettingError :=
  if error.kind = .overflow then .overflow error else inSection error

/-- A branch that is not known, by its name if that can be written. -/
def ofUnknownBranch (name : Value) : SettingError :=
  match name.toText with
  | .ok plain => .unknownBranch plain
  | .error error => .text error

end SettingError

abbrev Entries := List (Scalar × Value)

namespace Entries

/-- The value of a setting, unless it is missing or null. -/
def setting? (entries : Entries) (key : String) : Option Value :=
  match lookup? (.text key) entries with
  | some value => if value.isNull then none else some value
  | none => none

/-- The entries of a section; a missing section has none. -/
def sectionNamed (entries : Entries) (key : String) : Except SettingError Entries :=
  match entries.setting? key with
  | none => .ok []
  | some (.mapping inner) => .ok inner
  | some value => .error (.notMapping key value.kind)

def text (entries : Entries) (key : String) (default : String) : Except SettingError String :=
  match entries.setting? key with
  | none => .ok default
  | some value => value.toText.mapError .text

def strings (entries : Entries) (key : String) (default : List String) :
    Except SettingError (List String) :=
  match entries.setting? key with
  | none => .ok default
  | some (.list items) => (items.mapM Value.toText).mapError .text
  | some value => .error (.notList key value.kind)

def integer (entries : Entries) (key : String) (default : Nat)
    (inSection : NumberError → SettingError) : Except SettingError Int :=
  match entries.setting? key with
  | none => .ok default
  | some value => value.toInt.mapError (SettingError.ofNumber inSection)

def float (entries : Entries) (key : String) (default : Float)
    (inSection : NumberError → SettingError) : Except SettingError Float :=
  match entries.setting? key with
  | none => .ok default
  | some value => value.toFloat.mapError (SettingError.ofNumber inSection)

end Entries

namespace Config

/-- Moves a number outside the unit interval to its nearer end. -/
def clampFloor (floor : Float) : Float :=
  let low := if floor < 0.0 then 0.0 else floor
  if 1.0 < low then 1.0 else low

/-- Lets the entries of a section override the severities of branches. -/
def overrideSeverities (severities : BranchSeverities) :
    Entries → Except SettingError BranchSeverities
  | [] => .ok severities
  | (key, value) :: entries =>
    match Branch.all.find? fun branch => key = .text branch.label with
    | none => .error (.ofUnknownBranch (.scalar key))
    | some branch => do
      let severity ← (Severity.parse value).mapError .severity
      overrideSeverities (severities.set branch severity) entries

def ofEntries (entries : Entries) : Except SettingError Config := do
  let base : Config := {}
  let version ← entries.text "version" base.version
  let scan ← entries.sectionNamed "scan"
  let roots ← scan.strings "roots" base.roots
  let extensions ← scan.strings "extensions" base.extensions
  let skipDirs ← scan.strings "skip_dirs" base.skipDirs
  let maxDepth ← scan.integer "max_depth" base.maxDepth .scanBound
  let maxFiles ← scan.integer "max_files" base.maxFiles .scanBound
  let analysis ← entries.sectionNamed "analysis"
  let floor ← analysis.float "confidence_floor" base.confidenceFloor .analysis
  let window ← analysis.integer "cascade_window" base.cascadeWindow .analysis
  let branchSeverities ←
    overrideSeverities base.branchSeverities (← analysis.sectionNamed "branch_severity")
  let analyzers ← entries.sectionNamed "analyzers"
  let disabled ← analyzers.strings "disabled" base.disabled
  return {
    version, roots, extensions, skipDirs, branchSeverities, disabled
    maxDepth := maxDepth.toNat
    maxFiles := max 1 maxFiles.toNat
    confidenceFloor := clampFloor floor
    cascadeWindow := window.toNat }

/-- The settings of a whole document; an empty document leaves everything at its default. -/
def ofDocument : Value → Except SettingError Config
  | .scalar .null => .ok {}
  | .mapping entries => ofEntries entries
  | _ => .error .topLevel

def texts (items : List String) : Value := .list (items.map Value.text)

/-- All settings as a document, from which they can be read again. -/
def toEntries (config : Config) : Entries :=
  [(.text "version", .text config.version),
    (.text "scan", .mapping [
      (.text "roots", texts config.roots),
      (.text "extensions", texts config.extensions),
      (.text "skip_dirs", texts config.skipDirs),
      (.text "max_depth", .int config.maxDepth),
      (.text "max_files", .int config.maxFiles)]),
    (.text "analysis", .mapping [
      (.text "confidence_floor", .float config.confidenceFloor),
      (.text "cascade_window", .int config.cascadeWindow),
      (.text "branch_severity", .mapping (Branch.all.map fun branch =>
        (.text branch.label, .text (config.branchSeverities.get branch).label)))]),
    (.text "analyzers", .mapping [(.text "disabled", texts config.disabled)])]

end Config

end RiskScan

import RiskScan.Cli.Analyze
import RiskScan.Cli.Arguments
import RiskScan.Cli.Settings
/-!
# The command line

The arguments are read, and then the request they make is carried out in the current directory.
Arguments that make no sense are answered on the error stream with the usage of what they were given
to.
-/

namespace RiskScan.Cli

/-- The surroundings of an invocation. -/
structure Setting where
  programName : String
  fs : FileSystem
  directory : Path
  /-- How long an analysis is said to take. -/
  milliseconds : Int := 0

def Request.perform (setting : Setting) : Request → Outcome
  | .help target => .printing setting.fs (target.help setting.programName) 0
  | .version => .printing setting.fs ("Thoughtscan v" ++ Cli.version ++ "\n") 0
  | .run .analyze debug => analyze setting.fs setting.directory debug setting.milliseconds
  | .run .config _ => showSettings setting.fs setting.directory
  | .run .init force => initSettings setting.fs setting.directory force

def UsageError.outcome (setting : Setting) (error : UsageError) : Outcome :=
  { exitCode := UsageError.exitCode
    output := [(.error, error.report setting.programName)]
    fs := setting.fs }

def run (setting : Setting) (arguments : List String) : Outcome :=
  match Request.ofArguments arguments with
  | .ok request => request.perform setting
  | .error error => error.outcome setting

end RiskScan.Cli

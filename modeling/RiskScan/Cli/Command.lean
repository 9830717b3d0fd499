/-!
# Commands

The program has three commands, and stands for the first of them when it is called without any. Each
has its help text and its options, all of which are flags.
-/

namespace RiskScan.Cli

inductive Command where
  | analyze
  | config
  | init
  deriving DecidableEq, Repr

namespace Command

def all : List Command := [.analyze, .config, .init]

def name : Command → String
  | .analyze => "analyze"
  | .config => "config"
  | .init => "init"

def ofName? (name : String) : Option Command :=
  all.find? fun command => command.name == name

theorem ofName?_name (command : Command) : ofName? command.name = some command := by
  cases command <;> decide

/-- The flag of a command, apart from the one for help. -/
def flag? : Command → Option String
  | .analyze => some "--debug"
  | .config => none
  | .init => some "--force"

def helpLines : Command → List String
  | .analyze => [
    "  Analyse the current directory.",
    "",
    "  Exits with code 1 when at least one critical reasoning path is found, 0",
    "  otherwise. Use --debug to re-raise unexpected errors.",
    "",
    "Options:",
    "  --debug  Show a traceback for unexpected errors",
    "  --help   Show this message and exit."]
  | .config => [
    "  Show Thoughtscan configuration.",
    "",
    "  Displays the effective settings after loading .thoughtscan.yml (or the built-",
    "  in defaults when no file exists).",
    "",
    "Options:",
    "  --help  Show this message and exit."]
  | .init => [
    "  Write a default .thoughtscan.yml in the current directory.",
    "",
    "Options:",
    "  --force  Overwrite existing configuration",
    "  --help   Show this message and exit."]

end Command

/-- The flag that every part of the command line understands. -/
def helpFlag : String := "--help"

def versionFlag : String := "--version"

def version : String := "1.0.0"

/-- What a list of arguments is given to: the program as a whole, or one of its commands. -/
inductive Target where
  | program
  | command (command : Command)
  deriving DecidableEq, Repr

namespace Target

def flags : Target → List String
  | .program => [versionFlag, helpFlag]
  | .command called => called.flag?.toList ++ [helpFlag]

def path (programName : String) : Target → String
  | .program => programName
  | .command called => programName ++ " " ++ called.name

def usage (programName : String) (target : Target) : String :=
  "Usage: " ++ target.path programName ++
    (match target with
      | .program => " [OPTIONS] [COMMAND] [ARGS]..."
      | .command _ => " [OPTIONS]")

def helpLines : Target → List String
  | .program => [
    "  Thoughtscan - Tree-of-Thought Security Reasoning",
    "",
    "  Scans src/, assets/js/ and scripts/ under the current directory for risky",
    "  JS/TS patterns, builds a weighted reasoning tree and fails when a critical",
    "  reasoning path is found.",
    "",
    "  Examples:     thoughtscan              # Analyse the current directory",
    "  thoughtscan config       # Show effective configuration     thoughtscan init",
    "  # Write a default .thoughtscan.yml",
    "",
    "Options:",
    "  --version  Show version and exit",
    "  --help     Show this message and exit.",
    "",
    "Commands:",
    "  analyze  Analyse the current directory.",
    "  config   Show Thoughtscan configuration.",
    "  init     Write a default .thoughtscan.yml in the current directory."]
  | .command called => called.helpLines

def help (programName : String) (target : Target) : String :=
  "\n".intercalate (target.usage programName :: "" :: target.helpLines) ++ "\n"

end Target

end RiskScan.Cli

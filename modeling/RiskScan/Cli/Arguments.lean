import RiskScan.Cli.Command
import RiskScan.Text.Quoted
import RiskScan.Text.Similarity
/-!
# Arguments

Arguments are read from left to right. One that begins with a dash is an option, up to a double
dash, after which nothing is. For the program as a whole options end at the first other argument,
which names the command; a command may have its options anywhere.
-/

namespace RiskScan.Cli

/-- A list of arguments that cannot be carried out. -/
inductive UsageError where
  | noSuchOption (target : Target) (name : String)
  | noSuchCommand (name : String)
  | extraArguments (target : Target) (arguments : List String)
  /-- A value is given to a flag. -/
  | unexpectedValue (name : String)
  deriving DecidableEq, Repr

namespace UsageError

def quotedList (names : List String) : String :=
  ", ".intercalate (names.map Text.quoted)

/-- The names that may have been meant instead of another one. -/
def similarNames (name : String) (known : List String) : List String :=
  (known.filter fun candidate => Text.isSimilar 6 candidate.toList name.toList).mergeSort
    fun first second => first ≤ second

def hint (plural : String) : List String → String
  | [] => ""
  | [name] => " Did you mean " ++ Text.quoted name ++ "?"
  | names => " (Possible " ++ plural ++ ": " ++ quotedList names ++ ")"

def message : UsageError → String
  | .noSuchOption target name =>
    "No such option " ++ Text.quoted name ++ "." ++
      hint "options" (if name.startsWith "--" then similarNames name target.flags else [])
  | .noSuchCommand name =>
    "No such command " ++ Text.quoted name ++ "." ++
      hint "commands" (similarNames name (Command.all.map Command.name))
  | .extraArguments _ [argument] => "Got unexpected extra argument (" ++ argument ++ ")"
  | .extraArguments _ arguments =>
    "Got unexpected extra arguments (" ++ " ".intercalate arguments ++ ")"
  | .unexpectedValue name => "Option " ++ Text.quoted name ++ " does not take a value."

/-- What the error is about, if it can be said. -/
def target? : UsageError → Option Target
  | .noSuchOption target _ => some target
  | .noSuchCommand _ => some .program
  | .extraArguments target _ => some target
  | .unexpectedValue _ => none

/-- The message with the usage of its target before it. -/
def report (programName : String) (error : UsageError) : String :=
  (match error.target? with
    | some target =>
      target.usage programName ++ "\nTry '" ++ target.path programName ++ " --help' for help.\n\n"
    | none => "") ++
  "Error: " ++ error.message ++ "\n"

def exitCode : Nat := 2

end UsageError

/-- Arguments that have been told apart. -/
structure Arguments where
  flags : List String := []
  rest : List String := []
  deriving DecidableEq, Repr

namespace Arguments

def isOption (argument : String) : Bool :=
  argument.startsWith "-" && argument != "-"

/-- The name of an option, and whether a value is given to it. -/
def splitValue (argument : String) : String × Bool :=
  let chars := argument.toList
  (String.ofList (chars.takeWhile (· != '=')), chars.contains '=')

/-- The flag that an option stands for. With a single dash the first letter alone would be an
option, and there are none of these. -/
def readFlag (target : Target) (argument : String) : Except UsageError String :=
  let (name, hasValue) := splitValue argument
  if target.flags.contains name then
    if hasValue then .error (.unexpectedValue name) else .ok name
  else if argument.startsWith "--" then .error (.noSuchOption target name)
  else .error (.noSuchOption target (String.ofList (argument.toList.take 2)))

def read (target : Target) : List String → Except UsageError Arguments
  | [] => .ok {}
  | argument :: arguments =>
    if argument = "--" then .ok { rest := arguments }
    else if isOption argument then do
      let flag ← readFlag target argument
      let others ← read target arguments
      return { others with flags := flag :: others.flags }
    else if target = .program then .ok { rest := argument :: arguments }
    else do
      let others ← read target arguments
      return { others with rest := argument :: others.rest }

def asksForHelp (arguments : Arguments) : Bool :=
  arguments.flags.contains helpFlag

end Arguments

/-- What the arguments of the program ask for. -/
inductive Request where
  | help (target : Target)
  | version
  | run (command : Command) (flagged : Bool)
  deriving DecidableEq, Repr

namespace Request

def ofCommand (command : Command) (arguments : List String) : Except UsageError Request := do
  let target := Target.command command
  let read ← Arguments.read target arguments
  if read.asksForHelp then return .help target
  if !read.rest.isEmpty then throw (.extraArguments target read.rest)
  return .run command !read.flags.isEmpty

/-- The arguments of the program. A command has to exist even where only the version is asked for,
but its own arguments do not matter then. What comes after a double dash and is no command is read
as options once more. -/
def ofArguments (arguments : List String) : Except UsageError Request := do
  let read ← Arguments.read .program arguments
  if read.asksForHelp then return .help .program
  let wantsVersion := read.flags.contains versionFlag
  match read.rest with
  | [] => return if wantsVersion then .version else .run .analyze false
  | name :: rest =>
    match Command.ofName? name with
    | some command => if wantsVersion then return .version else ofCommand command rest
    | none =>
      if (← Arguments.read .program read.rest).asksForHelp then return .help .program
      throw (.noSuchCommand name)

end Request

end RiskScan.Cli

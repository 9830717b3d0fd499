import RiskScan.Cli.Outcome
import RiskScan.Engine
import RiskScan.Report
/-!
# The analyze command

The command analyses the current directory and prints a report. It announces every root that is
there before the analysis begins. A fault ends the command with a message and a failing exit code.
-/

namespace RiskScan.Cli

/-- A part of a command that prints, and that a fault may end. -/
abbrev Session := ExceptT Fault (StateM Transcript)

namespace Session

def print (lines : Transcript) : Session Unit :=
  modify (· ++ lines)

def attempt {α : Type} (result : Except Fault α) : Session α :=
  ExceptT.mk (pure result)

end Session

open Session

def buildingLine : String :=
  "[blue]🌳 [bold]Building Tree of Thought Security Analysis...[/bold][/blue]"

def announcement (root : String) : String :=
  "[dim]Scanning directory: " ++ Markup.escape root ++ "[/dim]"

def announceRoots (fs : FileSystem) (project : Path) : List String → Session Unit
  | [] => pure ()
  | root :: roots => do
    let path := project.join (.ofString root)
    if ← attempt ((fs.hasDirectory path).mapError (·.fault path)) then print [announcement root]
    announceRoots fs project roots

def reportedRun (engine : Engine) (fs : FileSystem) (milliseconds : Int) :
    Engine.EngineM (Nat × Transcript) := do
  let run ← engine.run fs milliseconds
  let report ← modifyGet (Report.lines run.result).run
  return (run.result.exitCode, run.output ++ report)

/-- Analyses a project, prints everything about it and gives the exit code. -/
def analysis (fs : FileSystem) (project : Path) (milliseconds : Int) : Session Nat := do
  print Report.header
  let prepared ← attempt (Engine.prepare fs project)
  let engine := prepared.engine
  print (prepared.output ++ engine.warnings ++ [buildingLine])
  announceRoots fs project engine.config.roots
  let ((exitCode, report), _) ← attempt ((reportedRun engine fs milliseconds).run {})
  print report
  return exitCode

def faultLine (fault : Fault) : String :=
  "\n[red]❌ Error: " ++ Markup.escape fault.message ++ "[/red]"

/-- The analyze command. With `debug` a fault is passed on after it has been printed. -/
def analyze (fs : FileSystem) (directory : Path) (debug : Bool) (milliseconds : Int) : Outcome :=
  let (result, output) := ((analysis fs directory milliseconds).run []).run
  match result with
  | .ok exitCode => .printing fs (Transcript.text output) exitCode
  | .error fault =>
    { Outcome.printing fs (Transcript.text (output ++ [faultLine fault])) 1 with
      fault := if debug then some fault else none }

end RiskScan.Cli

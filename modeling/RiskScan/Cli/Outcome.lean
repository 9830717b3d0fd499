import RiskScan.Console
import RiskScan.FileSystem
/-!
# What an invocation does

An invocation prints on two streams, may change the file system, and ends with an exit code. One
that is asked to may also end with a fault.
-/

namespace RiskScan.Cli

inductive Stream where
  | standard
  | error
  deriving DecidableEq, Repr

structure Outcome where
  exitCode : Nat
  /-- Everything printed, in order. -/
  output : List (Stream × String)
  fs : FileSystem
  fault : Option Fault := none

namespace Outcome

/-- An outcome that prints some text and leaves the file system alone. -/
def printing (fs : FileSystem) (text : String) (exitCode : Nat) : Outcome :=
  { exitCode, output := [(.standard, text)], fs }

def text (outcome : Outcome) : String :=
  String.join (outcome.output.map (·.2))

def standardText (outcome : Outcome) : String :=
  String.join ((outcome.output.filter fun piece => piece.1 = .standard).map (·.2))

end Outcome

end RiskScan.Cli

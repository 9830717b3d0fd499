import RiskScan.Analyzer
import RiskScan.Signature.BuiltIn
/-!
# The registry of analyzers

Analyzers run in the order of registration. The built-in ones come first, and further ones may be
registered after them; names need not be unique, and a look-up by name gives the first that was
registered. Disabling a name disables every analyzer of that name.
-/

namespace RiskScan

abbrev Registry := List Analyzer

namespace Analyzer

def codeExecution : Analyzer :=
  { name := "CodeExecutionAnalyzer"
    branch := .codeExecution
    checks := [{ signature := .randomControlFlow, followUp := .asyncOperations }] }

def stateManagement : Analyzer :=
  { name := "StateManagementAnalyzer"
    branch := .stateManagement
    checks := [{ signature := .mutableGetterExposure, followUp := .stateManagement }] }

/-- The analyzer of asynchronous work, with a signature for event cascades. -/
def asyncConcurrency (cascade : Signature) : Analyzer :=
  { name := "AsyncConcurrencyAnalyzer"
    branch := .asyncConcurrency
    checks := [{ signature := .asyncWithoutAwait, followUp := .missingErrorHandling },
      { signature := cascade, followUp := .missingCleanup }] }

def dataFlow : Analyzer :=
  { name := "DataFlowAnalyzer"
    branch := .dataFlow
    checks := [{ signature := .memoryPollution }] }

end Analyzer

namespace Registry

/-- The built-in analyzers, for a cascade window that can be counted. -/
def builtIn (window : Nat) : Except Signature.WindowError Registry := do
  let cascade ← Signature.eventCascade? window
  return [.codeExecution, .stateManagement, .asyncConcurrency cascade, .dataFlow]

/-- The cascade window that holds when the settings do not give one. -/
def defaultWindow : Nat := 10

def enabled (registry : Registry) (disabled : List String) : List Analyzer :=
  registry.filter fun analyzer => !disabled.contains analyzer.name

def find? (registry : Registry) (name : String) : Option Analyzer :=
  List.find? (fun analyzer => analyzer.name == name) registry

end Registry

end RiskScan

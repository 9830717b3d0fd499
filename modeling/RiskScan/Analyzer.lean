import RiskScan.Branch
import RiskScan.CodeContext
import RiskScan.Signature
import RiskScan.Text.Similarity
/-!
# Analyzers

An analyzer checks a file for some signatures and attaches a finding to its branch for each of them
that matches. A finding may call for a follow-up, which looks at the whole file and attaches a child
to the finding. An analyzer that fails half-way leaves behind what it has attached.
-/

namespace RiskScan

/-- Work on a store that may fail for a reason of any kind. -/
abbrev Analysis := EStateM Fault Store

/-- An operation on the store as a part of an analysis. -/
def Analysis.ofStore {α : Type} (operation : StoreM α) : Analysis α := fun store =>
  match operation store with
  | .ok a store => .ok a store
  | .error error store => .error error.fault store

def Analysis.attach (parent : NodeId) (node : Node) : Analysis NodeId := fun store =>
  let (id, store) := store.create node
  match Store.addChild parent id store with
  | .ok () store => .ok id store
  | .error error store => .error error.fault store

/-- Creates a node from a draft and makes it a child. -/
def Analysis.attachDraft (parent : NodeId) (draft : Draft) : Analysis NodeId :=
  match draft.node with
  | .ok node => Analysis.attach parent node
  | .error error => throw error.fault

/-- What else to look at once a finding has been made. -/
inductive FollowUp where
  | none
  /-- Asynchronous work in the same file makes chance worse. -/
  | asyncOperations
  /-- State management in the same file makes the finding more certain. -/
  | stateManagement
  /-- Asynchronous work in a file without any error handling. -/
  | missingErrorHandling
  /-- Events in a file that never removes a listener. -/
  | missingCleanup
  deriving DecidableEq, Repr

namespace FollowUp

def asyncRandomCompound (context : CodeContext) : Node :=
  { kind := "ASYNC_RANDOM_COMPOUND"
    description := "Random control flow combined with async operations"
    severity := .critical
    evidence := some ("Async operations: " ++ toString context.asyncOperations.length)
    confidence := ⟨0.95, by decide, by decide⟩
    reasoning := some ("Combination of randomness and async operations significantly increases " ++
      "collapse vector risk") }

def stateManagementDetected (context : CodeContext) : Node :=
  { kind := "STATE_MANAGEMENT_DETECTED"
    description := "File contains state management patterns"
    severity := .medium
    evidence := some ("Patterns: " ++ ", ".intercalate (context.stateManagement.take 3))
    confidence := ⟨0.9, by decide, by decide⟩
    reasoning := Option.none }

def noErrorHandling : Node :=
  { kind := "NO_ERROR_HANDLING"
    description := "Missing error handling for async operations"
    severity := .high
    evidence := some "No try/catch or error handling detected"
    confidence := ⟨0.85, by decide, by decide⟩
    reasoning := some "Unhandled async errors can propagate and cause system instability" }

def noEventCleanup : Node :=
  { kind := "NO_EVENT_CLEANUP"
    description := "Missing event listener cleanup"
    severity := .medium
    evidence := some "No cleanup patterns detected"
    confidence := ⟨0.7, by decide, by decide⟩
    reasoning :=
      some "Without proper cleanup, event cascades can accumulate and cause memory leaks" }

/-- How much state management in the same file adds to the confidence in a getter finding. -/
def stateConfidenceBump : Value := .float 0.15

def cleanupTokens : List String := ["removeEventListener", "unsubscribe"]

def hasCleanup (content : String) : Bool :=
  cleanupTokens.any fun token => Text.contains token.toList content.toList

/-- Attaches a child that depends on the finding it belongs to. -/
def attachDependent (finding : NodeId) (node : Node) : Analysis Unit := do
  let child ← Analysis.attach finding node
  Analysis.ofStore (Store.addDependency child finding)

def bump (finding : NodeId) (delta : Value) : Analysis Unit := fun store =>
  match store.bumpConfidence finding delta with
  | .ok store => .ok () store
  | .error error => .error error.fault store

def apply (followUp : FollowUp) (finding : NodeId) (content : String) (context : CodeContext) :
    Analysis Unit :=
  match followUp with
  | .none => pure ()
  | .asyncOperations =>
    if context.hasAsyncOperations then attachDependent finding (asyncRandomCompound context)
    else pure ()
  | .stateManagement =>
    if context.hasStateManagement then do
      bump finding stateConfidenceBump
      attachDependent finding (stateManagementDetected context)
    else pure ()
  | .missingErrorHandling =>
    if context.hasErrorHandling then pure ()
    else discard (Analysis.attach finding noErrorHandling)
  | .missingCleanup =>
    if hasCleanup content then pure () else attachDependent finding noEventCleanup

end FollowUp

/-- A signature and what follows when it matches. -/
structure Check where
  signature : Signature
  followUp : FollowUp := .none

/-- A failure that an analyzer meets on some files, after attaching some nodes. -/
structure Interruption where
  /-- The files are those whose path contains this text. -/
  pathPart : String
  attached : List Draft := []
  message : String

/-- A file as the analyzers see it. -/
structure SourceFile where
  path : String
  content : String
  context : CodeContext

def SourceFile.ofContent (path content : String) : SourceFile :=
  ⟨path, content, CodeContext.ofContent content⟩

namespace Check

def run (check : Check) (file : SourceFile) (parent : NodeId) : Analysis (Option NodeId) := do
  let count := check.signature.count file.content
  if count = 0 then return none
  let node ← match check.signature.finding count file.path with
    | .ok node => pure node
    | .error fault => throw fault
  let finding ← Analysis.attach parent node
  check.followUp.apply finding file.content file.context
  return some finding

def runAll (file : SourceFile) (parent : NodeId) : List Check → Analysis (List NodeId)
  | [] => return []
  | check :: checks => do
    let finding ← check.run file parent
    let findings ← runAll file parent checks
    return finding.toList ++ findings

end Check

namespace Interruption

def concerns (interruption : Interruption) (file : SourceFile) : Bool :=
  Text.contains interruption.pathPart.toList file.path.toList

def attachAll (parent : NodeId) : List Draft → Analysis Unit
  | [] => pure ()
  | draft :: drafts => do
    discard (Analysis.attachDraft parent draft)
    attachAll parent drafts

end Interruption

/-- Runs some checks on a file and returns the findings that were attached. An interruption that
concerns the file comes first, and nothing is checked then. -/
def Check.perform (checks : List Check) (interruption : Option Interruption) (file : SourceFile)
    (parent : NodeId) : Analysis (List NodeId) := do
  match interruption with
  | some interruption =>
    if interruption.concerns file then
      Interruption.attachAll parent interruption.attached
      throw ⟨.runtime, interruption.message⟩
  | none => pure ()
  Check.runAll file parent checks

structure Analyzer where
  name : String
  branch : Branch
  checks : List Check
  interruption : Option Interruption := none
  /-- Attaches the findings in a file to a branch and returns them. Analyzers that are not made of
  checks bring this themselves. -/
  analyze : SourceFile → Branches → Analysis (List NodeId) := fun file branches =>
    Check.perform checks interruption file (branches.get branch)

namespace Analyzer

def signatures (analyzer : Analyzer) : List Signature :=
  analyzer.checks.map Check.signature

end Analyzer

end RiskScan

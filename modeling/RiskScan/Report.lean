import RiskScan.AnalysisResult
import RiskScan.Console
import RiskScan.Store.Render
/-!
# The report of a run

A summary, the whole tree, and then either every critical path as a chain from the root to its leaf
or the verdict that there is none.
-/

namespace RiskScan.Report

open Markup

def header : Transcript :=
  ["💭 [bold magenta]Tree of Thought Security Reasoning[/bold magenta]",
    "[dim]Analyzing security vectors with hierarchical decision trees...[/dim]"]

/-- A warning with the number of things it is about, followed by one line for each. -/
def warningList {α : Type} (title : String) (line : α → String) (items : List α) : Transcript :=
  if items.isEmpty then []
  else ("[yellow]⚠️ " ++ title ++ ": " ++ toString items.length ++ "[/yellow]") :: items.map line

def suppressedLine (error : SuppressedError) : String :=
  "  [dim]" ++ error.operation ++ ": " ++ escape error.path ++ " (" ++ escape error.message ++
    ")[/dim]"

def failedLine (file : FileAnalysis) : String :=
  "  [dim]" ++ escape file.path ++ ": " ++ escape (file.message.getD "") ++ "[/dim]"

def missingRootsLine (roots : List String) : Transcript :=
  if roots.isEmpty then []
  else ["[dim]Roots not present: " ++ escape (", ".intercalate roots) ++ "[/dim]"]

def summary (result : AnalysisResult) : Transcript :=
  ["\n[bold cyan]=== TREE OF THOUGHT ANALYSIS RESULTS ===[/bold cyan]",
    "🔍 Files analyzed: " ++ toString result.filesAnalyzed,
    "🔍 Analysis time: " ++ toString result.milliseconds ++ "ms",
    "🔍 Security vectors found: " ++ toString result.totalIssues] ++
  missingRootsLine result.missingRoots ++
  warningList "Suppressed filesystem errors" suppressedLine result.suppressedErrors ++
  warningList "Files skipped after analysis errors" failedLine result.failedFiles ++
  [""]

def chainLines (node : Node) (last : Bool) : Transcript :=
  ("  " ++ (if last then "└─" else "├─") ++ " " ++ escape node.kind ++ ": " ++
    escape node.description) ::
  (match node.reasoning with
    | some reasoning =>
      if reasoning.isEmpty then [] else ["    [dim]→ " ++ escape reasoning ++ "[/dim]"]
    | none => [])

/-- The lines of the nodes on a critical path, from the root down. -/
def chain (store : Store) : List NodeId → Transcript
  | [] => []
  | [id] => chainLines (store.node id) true
  | id :: rest => chainLines (store.node id) false ++ chain store rest

def numberedChains (store : Store) : (number : Nat) → List (List NodeId) → Transcript
  | _, [] => []
  | number, path :: paths =>
    ("[red]Critical Path " ++ toString number ++ ":[/red]") :: chain store path ++ "" ::
      numberedChains store (number + 1) paths

def criticalPaths (store : Store) (paths : List (List NodeId)) : Transcript :=
  ("[red]❌ CRITICAL: " ++ toString paths.length ++ " critical reasoning paths detected![/red]") ::
  "[dim]These paths indicate high-risk collapse vector combinations.[/dim]\n" ::
  numberedChains store 1 paths

def verdict (totalIssues : Int) : Transcript :=
  if 0 < totalIssues then
    ["[yellow]⚠️ Found " ++ toString totalIssues ++ " potential security vectors.[/yellow]",
      "[dim]Review the reasoning tree above for detailed analysis.[/dim]"]
  else
    ["[green]✅ No critical security vectors detected.[/green]",
      "[dim]Tree of thought analysis completed successfully.[/dim]"]

def lines (result : AnalysisResult) : StateM Store Transcript := do
  let rendered ← Store.render 0 result.root
  let store ← get
  return summary result ++
    ["🌳 [bold]Security Reasoning Tree:[/bold]", rendered] ++
    (if result.criticalPaths.isEmpty then verdict result.totalIssues
      else criticalPaths store result.criticalPaths)

end RiskScan.Report

import RiskScan.Proofs.Report.Pages
import RiskScan.Report
/-!
# The templates of a report

Every line of a report is laid out from a template, which says where the strings of the tree and of
the outcome of the run stand between words and styles. The markup that is printed is the markup of
the templates.
-/

namespace RiskScan

open Markup

/-! ### The templates of a report -/

namespace Line

def detail (level : Int) (style label text : String) : Line where
  lead := [.words (indentation level ++ "  "), .style style, .words (label ++ ": ")]
  ending := { text, closing := some ("/" ++ style) }

def optional (level : Int) (label : String) : Option String → List Line
  | none => []
  | some text => if text.isEmpty then [] else [detail level "dim" label text]

end Line

namespace Node

def label (node : Node) (compound : Severity) : String :=
  if compound = node.severity then node.severity.label
  else node.severity.label ++ " → " ++ compound.label

def headTemplate (node : Node) (level : Int) (compound : Severity) : Line where
  lead := [.words (indentation level), .style node.severity.style,
    .label (node.label compound), .words " "]
  joint? := some { text := node.kind, words := ": " }
  ending := { text := node.description, closing := some ("/" ++ node.severity.style) }

def confidenceTemplate (node : Node) (level : Int) : Line where
  lead := [.words (indentation level ++ "  "), .style "dim",
    .words ("Confidence: " ++ node.confidence.percent)]
  ending := { closing := some "/dim" }

def templates (node : Node) (level : Int) (compound : Severity) : List Line :=
  node.headTemplate level compound ::
    (Line.optional level "Evidence" node.evidence ++
      Line.optional level "Reasoning" node.reasoning ++
      (if 0.0 < node.confidence.value then [node.confidenceTemplate level] else []) ++
      node.mitigations.map fun mitigation => .detail level "dim green" "Mitigation" mitigation)

end Node

mutual

def Outline.templates (level : Int) : Outline → StateM Store (List Line)
  | .node id children => do
    let compound ← Store.compound id
    let own := ((← get).node id).templates level compound
    return own ++ (← Outline.templatesOfAll (level + 1) children)

def Outline.templatesOfAll (level : Int) : List Outline → StateM Store (List Line)
  | [] => return []
  | outline :: outlines => do
    let first ← outline.templates level
    return first ++ (← Outline.templatesOfAll level outlines)

end

namespace Report

/-- A line of fixed words in one style. -/
def styled (style words : String) : Line where
  lead := [.style style, .words words]
  ending := { closing := some ("/" ++ style) }

def plainLine (words : String) : Line where
  lead := [.words words]

def suppressedTemplate (error : SuppressedError) : Line where
  lead := [.words "  ", .style "dim", .words (error.operation ++ ": ")]
  joint? := some { text := error.path, words := " (" }
  ending := { text := error.message, tail := ")", closing := some "/dim" }

def failedTemplate (file : FileAnalysis) : Line where
  lead := [.words "  ", .style "dim"]
  joint? := some { text := file.path, words := ": " }
  ending := { text := file.message.getD "", closing := some "/dim" }

def missingRootsTemplate (roots : List String) : List Line :=
  if roots.isEmpty then []
  else [{ lead := [.style "dim", .words "Roots not present: "]
          ending := { text := ", ".intercalate roots, closing := some "/dim" } }]

def warningTemplates {α : Type} (title : String) (template : α → Line) (items : List α) :
    List Line :=
  if items.isEmpty then []
  else styled "yellow" ("⚠️ " ++ title ++ ": " ++ toString items.length) :: items.map template

def summaryTemplates (result : AnalysisResult) : List Line :=
  [plainLine ("🔍 Files analyzed: " ++ toString result.filesAnalyzed),
    plainLine ("🔍 Analysis time: " ++ toString result.milliseconds ++ "ms"),
    plainLine ("🔍 Security vectors found: " ++ toString result.totalIssues)] ++
  missingRootsTemplate result.missingRoots ++
  warningTemplates "Suppressed filesystem errors" suppressedTemplate result.suppressedErrors ++
  warningTemplates "Files skipped after analysis errors" failedTemplate result.failedFiles ++
  [.blank]

def linkTemplate (node : Node) (last : Bool) : Line where
  lead := [.words ("  " ++ (if last then "└─" else "├─") ++ " ")]
  joint? := some { text := node.kind, words := ": " }
  ending := { text := node.description }

def linkTemplates (node : Node) (last : Bool) : List Line :=
  linkTemplate node last ::
  (match node.reasoning with
    | some reasoning =>
      if reasoning.isEmpty then []
      else [{ lead := [.words "    ", .style "dim", .words "→ "]
              ending := { text := reasoning, closing := some "/dim" } }]
    | none => [])

def chainTemplates (store : Store) : List NodeId → List Line
  | [] => []
  | [id] => linkTemplates (store.node id) true
  | id :: rest => linkTemplates (store.node id) false ++ chainTemplates store rest

def numberedTemplates (store : Store) : (number : Nat) → List (List NodeId) → List Line
  | _, [] => []
  | number, path :: paths =>
    styled "red" ("Critical Path " ++ toString number ++ ":") :: chainTemplates store path ++
      .blank ::
      numberedTemplates store (number + 1) paths

def verdictTemplates (totalIssues : Int) : List Line :=
  if 0 < totalIssues then
    [styled "yellow" ("⚠️ Found " ++ toString totalIssues ++ " potential security vectors."),
      styled "dim" "Review the reasoning tree above for detailed analysis."]
  else
    [styled "green" "✅ No critical security vectors detected.",
      styled "dim" "Tree of thought analysis completed successfully."]

/-- A page of a single line. -/
def single (line : Line) : Page where
  last := line

def criticalPages (store : Store) (paths : List (List NodeId)) : List Page :=
  single (styled "red"
    ("❌ CRITICAL: " ++ toString paths.length ++ " critical reasoning paths detected!")) ::
  { upper := [styled "dim" "These paths indicate high-risk collapse vector combinations."]
    last := .blank } ::
  (numberedTemplates store 1 paths).map single

/-- The report of a run, one page for each print. -/
def pages (result : AnalysisResult) : StateM Store (List Page) := do
  let rendered ← (← get).outline result.root |>.templates 0
  let store ← get
  return {
      upper := [.blank]
      last := styled "bold cyan" "=== TREE OF THOUGHT ANALYSIS RESULTS ===" } ::
    (summaryTemplates result).map single ++
    [single {
        lead := [.words "🌳 ", .style "bold", .words "Security Reasoning Tree:", .style "/bold"] },
      { upper := rendered, last := .blank }] ++
    (if result.criticalPaths.isEmpty then (verdictTemplates result.totalIssues).map single
      else criticalPages store result.criticalPaths)

/-- The lines of the report of a run. -/
def templates (result : AnalysisResult) (store : Store) : List Line :=
  (pages result store).1.flatMap Page.lines

end Report

/-! ### The report is laid out from its templates -/

section

variable (level : Int) (node : Node) (compound : Severity)

theorem Line.markup_detail (style label text : String) :
    (Line.detail level style label text).markup ++ "\n" =
      detailLine level style label (escape text) := by
  apply String.toList_inj.mp
  simp [Line.detail, Line.markup, Ending.toList_markup, Ending.after, detailLine, Part.markup]

theorem Line.markupOfAll_optional (label : String) (text : Option String) :
    markupOfAll (optional level label text) = optionalDetail level label text := by
  cases text with
  | none => rfl
  | some text =>
    rw [optional, optionalDetail]
    split
    · rfl
    · rw [markupOfAll_cons, markup_detail]
      exact String.append_empty

theorem Node.markup_headTemplate :
    (node.headTemplate level compound).markup ++ "\n" = node.headline level compound := by
  apply String.toList_inj.mp
  simp [headTemplate, Line.markup, Ending.toList_markup, Ending.after, Joint.markup, headline,
    Node.label, Part.markup]

theorem Node.markup_confidenceTemplate : (node.confidenceTemplate level).markup ++ "\n" =
    detailLine level "dim" "Confidence" node.confidence.percent := by
  apply String.toList_inj.mp
  simp [confidenceTemplate, Line.markup, Ending.toList_markup, Ending.after, detailLine,
    Part.markup, escape, escapeFrom, endsInLoneBackslash]

theorem Node.markupOfAll_templates :
    Line.markupOfAll (node.templates level compound) = node.lines level compound := by
  have hconfidence :
      Line.markupOfAll
        (if 0.0 < node.confidence.value then [node.confidenceTemplate level] else []) =
      if 0.0 < node.confidence.value then detailLine level "dim" "Confidence"
        node.confidence.percent else "" := by
    split
    · rw [Line.markupOfAll_cons, markup_confidenceTemplate]
      exact String.append_empty
    · rfl
  have hmitigations : Line.markupOfAll
      (node.mitigations.map fun mitigation => .detail level "dim green" "Mitigation" mitigation) =
        String.join (node.mitigations.map fun mitigation =>
          detailLine level "dim green" "Mitigation" (escape mitigation)) := by
    rw [Line.markupOfAll, List.map_map]
    exact congrArg String.join
      (List.map_congr_left fun mitigation _ => Line.markup_detail level _ _ mitigation)
  rw [templates, Line.markupOfAll_cons, Line.markupOfAll_append, Line.markupOfAll_append,
    Line.markupOfAll_append, markup_headTemplate, Line.markupOfAll_optional,
    Line.markupOfAll_optional, hconfidence, hmitigations, lines]
  simp only [String.append_assoc]

end

mutual

theorem Outline.render_eq (level : Int) : (outline : Outline) →
    outline.render level = Line.markupOfAll <$> outline.templates level
  | .node id children => by
    simp only [render, templates, Outline.renderAll_eq (level + 1) children, map_bind,
      bind_map_left, map_pure, Line.markupOfAll_append, Node.markupOfAll_templates]

theorem Outline.renderAll_eq (level : Int) : (outlines : List Outline) →
    Outline.renderAll level outlines = Line.markupOfAll <$> Outline.templatesOfAll level outlines
  | [] => rfl
  | outline :: outlines => by
    simp only [renderAll, templatesOfAll, Outline.render_eq level outline,
      Outline.renderAll_eq level outlines, map_bind, bind_map_left, map_pure,
      Line.markupOfAll_append]

end

namespace Report

@[simp]
theorem markup_styled (style words : String) :
    (styled style words).markup = "[" ++ style ++ "]" ++ words ++ "[/" ++ style ++ "]" := by
  apply String.toList_inj.mp
  simp [styled, Line.markup, Ending.toList_markup, Ending.after, Part.markup, escape, escapeFrom,
    endsInLoneBackslash]

@[simp]
theorem markup_plainLine (words : String) : (plainLine words).markup = words := by
  apply String.toList_inj.mp
  simp [plainLine, Line.markup, Ending.toList_markup, Ending.after, Part.markup, escape, escapeFrom,
    endsInLoneBackslash]

@[simp]
theorem markup_blank : Line.blank.markup = "" :=
  String.toList_inj.mp Line.toList_markup_blank

theorem markup_suppressedTemplate (error : SuppressedError) :
    (suppressedTemplate error).markup = suppressedLine error := by
  apply String.toList_inj.mp
  simp [suppressedTemplate, suppressedLine, Line.markup, Ending.toList_markup, Ending.after,
    Joint.markup, Part.markup]

theorem markup_failedTemplate (file : FileAnalysis) :
    (failedTemplate file).markup = failedLine file := by
  apply String.toList_inj.mp
  simp [failedTemplate, failedLine, Line.markup, Ending.toList_markup, Ending.after, Joint.markup,
    Part.markup]

theorem markup_linkTemplates (node : Node) (last : Bool) :
    (linkTemplates node last).map Line.markup = chainLines node last := by
  have hlink : (linkTemplate node last).markup =
      "  " ++ (if last then "└─" else "├─") ++ " " ++ escape node.kind ++ ": " ++
        escape node.description := by
    apply String.toList_inj.mp
    simp [linkTemplate, Line.markup, Ending.toList_markup, Ending.after, Joint.markup, Part.markup]
  rw [linkTemplates, List.map_cons, hlink, chainLines]
  congr 1
  cases node.reasoning with
  | none => rfl
  | some reasoning =>
    dsimp only
    split
    · rfl
    · rw [List.map_singleton]
      congr 1
      apply String.toList_inj.mp
      simp [Line.markup, Ending.toList_markup, Ending.after, Part.markup]

theorem markup_chainTemplates (store : Store) : (path : List NodeId) →
    (chainTemplates store path).map Line.markup = chain store path
  | [] => rfl
  | [id] => markup_linkTemplates (store.node id) true
  | id :: next :: rest => by
    rw [chainTemplates, chain, List.map_append, markup_linkTemplates,
      markup_chainTemplates store (next :: rest)]
    · simp
    · simp

theorem markup_numberedTemplates (store : Store) (number : Nat) (paths : List (List NodeId)) :
    (numberedTemplates store number paths).map Line.markup = numberedChains store number paths := by
  induction paths generalizing number with
  | nil => rfl
  | cons path paths ih =>
    have hhead : (styled "red" ("Critical Path " ++ toString number ++ ":")).markup =
        "[red]Critical Path " ++ toString number ++ ":[/red]" := by
      apply String.toList_inj.mp
      simp
    simp only [numberedTemplates, numberedChains, List.map_append, List.map_cons, List.cons_append,
      markup_chainTemplates, ih, hhead, markup_blank]

theorem markup_verdictTemplates (totalIssues : Int) :
    (verdictTemplates totalIssues).map Line.markup = verdict totalIssues := by
  have hfound :
      (styled "yellow"
        ("⚠️ Found " ++ toString totalIssues ++ " potential security vectors.")).markup =
      "[yellow]⚠️ Found " ++ toString totalIssues ++ " potential security vectors.[/yellow]" := by
    apply String.toList_inj.mp
    simp
  unfold verdictTemplates verdict
  split
  · rw [List.map_cons, hfound, List.map_singleton, markup_styled]
    rfl
  · rw [List.map_cons, List.map_singleton, markup_styled, markup_styled]
    rfl

theorem markup_missingRootsTemplate (roots : List String) :
    (missingRootsTemplate roots).map Line.markup = missingRootsLine roots := by
  unfold missingRootsTemplate missingRootsLine
  split
  · rfl
  · rw [List.map_singleton]
    congr 1
    apply String.toList_inj.mp
    simp [Line.markup, Ending.toList_markup, Ending.after, Part.markup]

theorem markup_warningTemplates {α : Type} {title : String} {template : α → Line}
    {line : α → String} (h : ∀ item, (template item).markup = line item) (items : List α) :
    (warningTemplates title template items).map Line.markup = warningList title line items := by
  unfold warningTemplates warningList
  split
  · rfl
  · rw [List.map_cons, List.map_map]
    congr 1
    · apply String.toList_inj.mp
      simp
    · exact List.map_congr_left fun item _ => h item

theorem markup_summaryTemplates (result : AnalysisResult) :
    "\n[bold cyan]=== TREE OF THOUGHT ANALYSIS RESULTS ===[/bold cyan]" ::
      (summaryTemplates result).map Line.markup = summary result := by
  simp only [summaryTemplates, summary, List.map_append, List.map_cons, List.map_nil,
    markup_plainLine, markup_blank, markup_missingRootsTemplate,
    markup_warningTemplates markup_suppressedTemplate,
    markup_warningTemplates markup_failedTemplate, List.cons_append, List.nil_append]

@[simp]
theorem markup_single (line : Line) : (single line).markup = line.markup :=
  String.empty_append

theorem map_markup_single (lines : List Line) :
    (lines.map single).map Page.markup = lines.map Line.markup := by
  rw [List.map_map]
  exact List.map_congr_left fun line _ => markup_single line

theorem markup_criticalPages (store : Store) (paths : List (List NodeId)) :
    (criticalPages store paths).map Page.markup = criticalPaths store paths := by
  rw [criticalPages, criticalPaths, List.map_cons, List.map_cons, map_markup_single,
    markup_numberedTemplates]
  congr 1
  · apply String.toList_inj.mp
    simp
  · congr 1
    apply String.toList_inj.mp
    simp [Page.markup, Line.markupOfAll]

/-- **A report consists of its pages.** -/
theorem lines_eq (result : AnalysisResult) :
    lines result = List.map Page.markup <$> pages result := by
  have hhead :
      Page.markup ⟨[.blank], styled "bold cyan" "=== TREE OF THOUGHT ANALYSIS RESULTS ==="⟩ =
      "\n[bold cyan]=== TREE OF THOUGHT ANALYSIS RESULTS ===[/bold cyan]" := by
    apply String.toList_inj.mp
    simp [Page.markup, Line.markupOfAll]
  have htitle : Line.markup
      ⟨[.words "🌳 ", .style "bold", .words "Security Reasoning Tree:", .style "/bold"], none, { }⟩ =
        "🌳 [bold]Security Reasoning Tree:[/bold]" := by
    apply String.toList_inj.mp
    simp [Line.markup, Ending.toList_markup, Ending.after, Part.markup, escape, escapeFrom,
      endsInLoneBackslash]
  have htree (rendered : List Line) : Page.markup ⟨rendered, .blank⟩ =
      Line.markupOfAll rendered := by
    rw [Page.markup, markup_blank]
    exact String.append_empty
  have hrest (store : Store) :
      (if result.criticalPaths.isEmpty then (verdictTemplates result.totalIssues).map single
      else criticalPages store result.criticalPaths).map Page.markup =
        if result.criticalPaths.isEmpty then verdict result.totalIssues
        else criticalPaths store result.criticalPaths := by
    split
    · rw [map_markup_single, markup_verdictTemplates]
    · exact markup_criticalPages store result.criticalPaths
  simp only [lines, pages, Store.render, Outline.render_eq, bind_map_left, map_bind, map_pure,
    bind_assoc, List.map_append, List.map_cons, List.map_nil, hhead, htree, markup_single, htitle,
    map_markup_single, ← markup_summaryTemplates, hrest]

end Report

end RiskScan

import RiskScan.Proofs.Compound.Detection
import RiskScan.Proofs.Report.Layout
/-!
# Reports are faithful where their lines are legible

The text of a report is the text of its templates, with every string of the tree and of the outcome
as it is, exactly if each of the lines is legible. A line may fail to be: strings are escaped one by
one, and what they are next to is not looked at.
-/

namespace RiskScan

/-! ### Reading the tree -/

theorem Node.Unbroken.ask {store : Store} {id : NodeId} (h : (store.node id).Unbroken)
    (ids : List NodeId) :
    ((store.ask ids).node id).Unbroken := by
  have hkept :=
    Store.ask_keeps (fun node => { node with memo := none }) (fun _ _ => rfl) store ids id
  simp only [Node.mk.injEq] at hkept
  obtain ⟨hkind, hdescription, -, hevidence, -, hreasoning, hmitigations, -⟩ := hkept
  constructor
  · rw [hkind]
    exact h.kind
  · rw [hdescription]
    exact h.description
  · rw [hevidence]
    exact h.evidence
  · rw [hreasoning]
    exact h.reasoning
  · rw [hmitigations]
    exact h.mitigations

theorem Node.unbroken_of_lt {store : Store} (h : ∀ id < store.nodes.size, (store.node id).Unbroken)
    (id : NodeId) :
    (store.node id).Unbroken := by
  by_cases hid : id < store.nodes.size
  · exact h id hid
  · rw [Store.node_of_size_le (Nat.le_of_not_lt hid)]
    decide

namespace Store.Reads

variable {store : Store}

theorem compound_any (id : NodeId) : Reads store (Store.compound id) fun _ => True := by
  intro before
  refine ⟨[id], (store.ask before).compoundNow id, ?_, trivial⟩
  rw [ask_append]
  rfl

mutual

theorem templates (h : ∀ id, (store.node id).Unbroken) (level : Int) : (outline : Outline) →
    Reads store (outline.templates level) fun lines => ∀ line ∈ lines, line.WellSet ∧ line.Closed
  | .node id children => by
    rw [Outline.templates]
    refine (compound_any id).bind fun severity _ => get.bind fun later hlater => ?_
    refine (templatesOfAll h (level + 1) children).bind fun lines hlines => pure ?_
    obtain ⟨ids, rfl⟩ := hlater
    exact List.forall_mem_append.mpr ⟨Node.wellSet_templates ((h id).ask ids), hlines⟩

theorem templatesOfAll (h : ∀ id, (store.node id).Unbroken) (level : Int) :
    (outlines : List Outline) →
    Reads store (Outline.templatesOfAll level outlines) fun lines => ∀ line ∈ lines, line.WellSet ∧
    line.Closed
  | [] => pure (List.forall_mem_nil _)
  | outline :: outlines => by
    rw [Outline.templatesOfAll]
    refine (templates h level outline).bind fun first hfirst => ?_
    refine (templatesOfAll h level outlines).bind fun others hothers => pure ?_
    exact List.forall_mem_append.mpr ⟨hfirst, hothers⟩

end

theorem pages {result : AnalysisResult} (h : ∀ id, (store.node id).Unbroken)
    (hresult : result.Unbroken) :
    Reads store (Report.pages result) fun pages => ∀ page ∈ pages, Report.WellSet page := by
  unfold Report.pages
  refine get.bind fun before _ =>
    (templates h 0 (before.outline result.root)).bind fun rendered hrendered => ?_
  refine get.bind fun later hlater => pure ?_
  obtain ⟨ids, rfl⟩ := hlater
  have htitle : Line.WellSet
      { lead := [.words "🌳 ", .style "bold", .words "Security Reasoning Tree:",
          .style "/bold"] } := by
    refine Line.wellSet_of_ending ?_ Ending.sound_open List.not_mem_nil
    simp only [List.forall_mem_cons]
    exact ⟨show Quiet "🌳 " by decide, show StyleName "bold" by decide,
      show Quiet "Security Reasoning Tree:" by decide, show StyleName "/bold" by decide,
      List.forall_mem_nil _⟩
  simp only [List.forall_mem_append, List.forall_mem_cons]
  refine ⟨⟨⟨⟨?_, Report.wellSet_styled (by decide) (by decide)⟩,
    Report.wellSet_single (Report.wellSet_summaryTemplates hresult)⟩,
    ⟨List.forall_mem_nil _, htitle⟩,
    ⟨hrendered, Line.wellSet_blank⟩, List.forall_mem_nil _⟩, ?_⟩
  · rw [List.forall_mem_singleton]
    exact ⟨Line.wellSet_blank, .inr rfl⟩
  · split
    · exact Report.wellSet_single (Report.wellSet_verdictTemplates _)
    · exact Report.wellSet_criticalPages (fun id => (h id).ask ids) _

end Store.Reads

namespace Report

variable {store : Store} {result : AnalysisResult}

theorem pieces_lines (h : ∀ id, (store.node id).Unbroken) (hresult : result.Unbroken) :
    Transcript.pieces (lines result store).1 = (templates result store).flatMap Line.readLine ∧
      ∀ line ∈ templates result store, line.WellSet := by
  obtain ⟨asked, pages, heq, hpages⟩ := Store.Reads.pages h hresult []
  have hpagesof : Report.pages result store = (pages, store.ask asked) := heq
  have hlines : (lines result store).1 = pages.map Page.markup := by
    rw [lines_eq]
    change (Report.pages result store).1.map Page.markup = _
    rw [hpagesof]
  have hlineset : ∀ page ∈ pages, ∀ line ∈ page.lines, line.WellSet := by
    intro page hpage
    refine List.forall_mem_append.mpr ⟨fun line hline => ((hpages page hpage).1 line hline).1, ?_⟩
    rw [List.forall_mem_singleton]
    exact (hpages page hpage).2
  have htemplates : templates result store = pages.flatMap Page.lines := by
    rw [templates, hpagesof]
  rw [hlines, htemplates, Transcript.pieces_pages]
  · refine ⟨rfl, fun line hline => ?_⟩
    obtain ⟨page, hpage, hmem⟩ := List.mem_flatMap.mp hline
    exact hlineset page hpage line hmem
  · exact fun page hpage => ⟨fun line hline => ((hpages page hpage).1 line hline).2,
      fun line hline => (hlineset page hpage line hline).sound⟩

/-- A line that is not legible shows. -/
theorem legible_of_text (h : ∀ id, (store.node id).Unbroken) (hresult : result.Unbroken)
    (htext : Transcript.text (lines result store).1 = Line.textOfAll (templates result store)) :
    ∀ line ∈ templates result store, line.Legible := by
  obtain ⟨hpieces, hset⟩ := pieces_lines h hresult
  refine Line.legible_of_readLines (fun line hline => (hset line hline).sound)
    (fun line hline => (hset line hline).unbroken) ?_
  rw [← hpieces, ← Transcript.toList_text, htext]

/-- **A report is faithful exactly if its lines are legible.** Then it also is read with no styles
but those of its templates. -/
theorem faithful_iff_legible (h : ∀ id, (store.node id).Unbroken) (hresult : result.Unbroken) :
    (Transcript.text (lines result store).1 = Line.textOfAll (templates result store) ↔
        ∀ line ∈ templates result store, line.Legible) ∧
      (Transcript.pieces (lines result store).1 = Line.piecesOfAll (templates result store) ↔
        ∀ line ∈ templates result store, line.Legible) := by
  obtain ⟨hpieces, hset⟩ := pieces_lines h hresult
  have hread (hlegible : ∀ line ∈ templates result store, line.Legible) :
      Transcript.pieces (lines result store).1 = Line.piecesOfAll (templates result store) := by
    rw [hpieces, Line.readLines_of_legible (fun line hline => (hset line hline).sound) hlegible]
  have htext (heq : Transcript.pieces (lines result store).1 =
      Line.piecesOfAll (templates result store)) :
      Transcript.text (lines result store).1 = Line.textOfAll (templates result store) := by
    rw [← String.toList_inj, Transcript.toList_text, heq, Line.textOf_piecesOfAll]
  exact ⟨⟨legible_of_text h hresult, fun hlegible => htext (hread hlegible)⟩,
    ⟨fun heq => legible_of_text h hresult (htext heq), hread⟩⟩

/-- Strings with brackets and backslashes that do no harm where they stand. -/
def bracketedDraft : Draft where
  kind := "[bold]"
  description := "C:\\dir\\x[0]"
  severity := .text "high"
  evidence := some "C:\\dir\\"

def bracketedTexts : List Operation :=
  [.create bracketedDraft, .plant 0, .addMitigation 0 "\\[bold]", .setReasoning 0 (some "[/dim")]

def bracketedResult : AnalysisResult where
  root := 0
  criticalPaths := [[0]]
  totalIssues := 1
  filesAnalyzed := 1
  milliseconds := 0
  failedFiles := [{ path := "[a]", success := false, message := some "b]" }]
  suppressedErrors := [⟨"[a", "read", "b[]"⟩]
  missingRoots := ["[c", "d]"]

theorem faithful_of_bracketedTexts :
    ∃ store, Store.Reachable store ∧ (∀ id, (store.node id).Unbroken) ∧ bracketedResult.Unbroken ∧
      Transcript.text (lines bracketedResult store).1 =
        Line.textOfAll (templates bracketedResult store) ∧
      Transcript.pieces (lines bracketedResult store).1 =
        Line.piecesOfAll (templates bracketedResult store) := by
  have hreachable : Store.Reachable (Store.empty.run bracketedTexts) :=
    Store.reaches_run .refl bracketedTexts (by decide +kernel)
  have hnodes : ∀ id < (Store.empty.run bracketedTexts).nodes.size,
      ((Store.empty.run bracketedTexts).node id).Unbroken := by decide +kernel
  have hresult : bracketedResult.Unbroken := ⟨by decide, by decide, by decide, by decide⟩
  have hlegible : ∀ line ∈ templates bracketedResult (Store.empty.run bracketedTexts),
      line.Legible := by
    decide +kernel
  obtain ⟨htext, hpieces⟩ := faithful_iff_legible (Node.unbroken_of_lt hnodes) hresult
  exact ⟨_, hreachable, Node.unbroken_of_lt hnodes, hresult, htext.mpr hlegible,
    hpieces.mpr hlegible⟩

/-- A tag begins in the kind of the node and ends in its description. -/
def splitTag : List Operation :=
  [.create { kind := "[x", description := "y]", severity := .text "low" }, .plant 0]

def quietResult : AnalysisResult where
  root := 0
  criticalPaths := []
  totalIssues := 0
  filesAnalyzed := 0
  milliseconds := 0

/-- The kind and the description of the node are not shown. -/
theorem not_faithful_of_splitTag :
    ∃ store, Store.Reachable store ∧ (∀ id, (store.node id).Unbroken) ∧ quietResult.Unbroken ∧
      Transcript.text (lines quietResult store).1 ≠
        Line.textOfAll (templates quietResult store) := by
  have hreachable : Store.Reachable (Store.empty.run splitTag) :=
    Store.reaches_run .refl splitTag (by decide +kernel)
  have hnodes : ∀ id < (Store.empty.run splitTag).nodes.size,
      ((Store.empty.run splitTag).node id).Unbroken := by
    decide +kernel
  have hresult : quietResult.Unbroken := ⟨by decide, by decide, by decide, by decide⟩
  have hillegible : ¬∀ line ∈ templates quietResult (Store.empty.run splitTag), line.Legible := by
    decide +kernel
  exact ⟨_, hreachable, Node.unbroken_of_lt hnodes, hresult,
    fun htext => hillegible (legible_of_text (Node.unbroken_of_lt hnodes) hresult htext)⟩

end Report

end RiskScan

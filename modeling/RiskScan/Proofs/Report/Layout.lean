import RiskScan.Proofs.Report.Templates
/-!
# The layout of a report

All words and styles of the templates are sound: words mean nothing to a console, and styles are
tags. Where the strings of the tree and of the outcome hold no line breaks, every line stays on its
own.
-/

namespace RiskScan

open Markup

/-! ### Words that mean nothing to a console -/

namespace Quiet

theorem of_digits {text : String} (h : ∀ c ∈ text.toList, c.isDigit = true ∨ c = '.') :
    Quiet text := by
  intro c hc
  refine ⟨?_, ?_, ?_, ?_⟩
  all_goals
    rintro rfl
    exact absurd (h _ hc) (by decide)

theorem natText (number : Nat) : Quiet (toString number) :=
  of_digits fun _ hc =>
    .inl (Nat.isDigit_of_mem_toDigits (by decide) (by decide) (Nat.toList_repr ▸ hc))

theorem intText (number : Int) : Quiet (toString number) := by
  cases number with
  | ofNat number => exact natText number
  | negSucc number => exact append_iff.mpr ⟨by decide, natText (number + 1)⟩

theorem between {before text after : String} (hbefore : Quiet before) (h : Quiet text)
    (hafter : Quiet after) :
    Quiet (before ++ text ++ after) :=
  append_iff.mpr ⟨append_iff.mpr ⟨hbefore, h⟩, hafter⟩

theorem placeDigits (places units : Nat) :
    Quiet (String.ofList (Decimal.placeDigits places units)) := by
  have hpadded : ∀ c ∈ List.replicate (places + 1 - (Nat.toDigits 10 units).length) '0' ++
      Nat.toDigits 10 units,
      c.isDigit = true ∨ c = '.' := by
    intro c hc
    obtain hzero | hdigit := List.mem_append.mp hc
    · rw [List.eq_of_mem_replicate hzero]
      exact .inl (by decide)
    · exact .inl (Nat.isDigit_of_mem_toDigits (by decide) (by decide) hdigit)
  apply of_digits
  rw [String.toList_ofList, Decimal.placeDigits]
  split
  · exact hpadded
  · refine List.forall_mem_append.mpr ⟨fun c hc => hpadded c (List.mem_of_mem_take hc), ?_⟩
    exact List.forall_mem_cons.mpr ⟨.inr rfl, fun c hc => hpadded c (List.mem_of_mem_drop hc)⟩

theorem percent (confidence : Confidence) : Quiet confidence.percent := by
  refine append_iff.mpr ⟨?_, by decide⟩
  unfold Decimal.fixed
  split
  · decide
  · split <;> decide
  · refine append_iff.mpr ⟨?_, placeDigits _ _⟩
    split <;> decide

theorem indentation (level : Int) : Quiet (RiskScan.indentation level) := by
  rw [RiskScan.indentation, String.pushn_eq_repeat_push]
  induction (2 * level).toNat with
  | zero => exact fun c hc => absurd hc List.not_mem_nil
  | succ count ih =>
    rw [Nat.repeat, Quiet, String.toList_push]
    exact List.forall_mem_append.mpr ⟨ih, List.forall_mem_singleton.mpr (by decide)⟩

end Quiet

/-! ### The templates are laid out well -/

/-- A style and the tag that closes it. -/
def StyleName (style : String) : Prop :=
  Quiet style ∧ opens style.toList = true

instance (style : String) : Decidable (StyleName style) :=
  inferInstanceAs (Decidable (_ ∧ _))

theorem Severity.styleName (severity : Severity) : StyleName severity.style := by
  cases severity <;> decide

namespace Ending

theorem sound_closing {text tail style : String} (hstyle : StyleName style) (htail : Quiet tail)
    (hopens : opens tail.toList = false) :
    Sound { text, tail, closing := some ("/" ++ style) } where
  tail := htail
  words := hopens
  closing body hbody := by
    obtain rfl := Option.mem_some_iff.mp hbody
    exact ⟨Quiet.append_iff.mpr ⟨by decide, hstyle.1⟩, by rw [String.toList_append]; rfl⟩

theorem sound_style {text style : String} (h : StyleName style) :
    Sound { text, closing := some ("/" ++ style) } :=
  sound_closing h (List.forall_mem_nil _) rfl

theorem sound_open {text : String} : Sound { text } :=
  ⟨List.forall_mem_nil _, rfl, fun _ hbody => absurd hbody (by simp)⟩

end Ending

theorem Joint.sound_colon {text : String} : Sound { text, words := ": " } where
  words := show Quiet ": " by decide
  ne_empty := show ": " ≠ "" by decide
  opens := show Markup.opens ": ".toList = false by decide

theorem Severity.sound_label (severity : Severity) : Part.Sound (.label severity.label) := by
  cases severity <;> exact ⟨by decide, by decide, rfl⟩

theorem Node.sound_label (node : Node) (compound : Severity) :
    Part.Sound (.label (node.label compound)) := by
  have hown := node.severity.sound_label
  unfold Node.label
  split
  · exact hown
  · refine ⟨by simp [hown.1, compound.sound_label.1, show Quiet " → " by decide], by simp, ?_⟩
    rw [String.toList_append, String.toList_append, List.append_assoc,
      opens_append (by simpa using hown.2.1)]
    exact hown.2.2

/-! ### Lines -/

/-- A line that is laid out well and that no text breaks. -/
structure Line.WellSet (line : Line) : Prop where
  sound : line.Sound
  unbroken : line.Unbroken

theorem Quiet.detailIndentation (level : Int) : Quiet (RiskScan.indentation level ++ "  ") :=
  append_iff.mpr ⟨indentation level, by decide⟩

namespace Line

variable {lead : List Part} {joint : Joint} {ending : Ending}

theorem wellSet_of_ending (hlead : ∀ part ∈ lead, part.Sound) (hending : ending.Sound)
    (htext : RiskScan.Unbroken ending.text) : WellSet { lead, ending } :=
  ⟨⟨hlead, fun _ hjoint => absurd hjoint (by simp), hending⟩,
    ⟨fun _ hjoint => absurd hjoint (by simp), htext⟩⟩

theorem wellSet_of_joint (hlead : ∀ part ∈ lead, part.Sound) (hjoint : joint.Sound)
    (hending : ending.Sound) (hfirst : RiskScan.Unbroken joint.text)
    (hlast : RiskScan.Unbroken ending.text) :
    WellSet { lead, joint? := some joint, ending } :=
  ⟨⟨hlead, fun _ hmem => Option.mem_some_iff.mp hmem ▸ hjoint, hending⟩,
    ⟨fun _ hmem => Option.mem_some_iff.mp hmem ▸ hfirst, hlast⟩⟩

theorem wellSet_blank : blank.WellSet :=
  wellSet_of_ending (List.forall_mem_nil _) Ending.sound_open List.not_mem_nil

theorem wellSet_detail {level : Int} {style label text : String} (hstyle : StyleName style)
    (hlabel : Quiet label) (htext : RiskScan.Unbroken text) :
    (detail level style label text).WellSet := by
  have hwords : Quiet (label ++ ": ") := Quiet.append_iff.mpr ⟨hlabel, by decide⟩
  refine wellSet_of_ending ?_ (Ending.sound_style hstyle) htext
  simp only [List.forall_mem_cons]
  exact ⟨Quiet.detailIndentation level, hstyle, hwords, List.forall_mem_nil _⟩

theorem wellSet_optional {level : Int} {label : String} {text? : Option String}
    (hlabel : Quiet label) (htext : ∀ text ∈ text?, RiskScan.Unbroken text) :
    ∀ line ∈ optional level label text?, line.WellSet ∧ line.Closed := by
  cases text? with
  | none => exact List.forall_mem_nil _
  | some text =>
    rw [optional]
    split
    · exact List.forall_mem_nil _
    · rw [List.forall_mem_singleton]
      exact ⟨wellSet_detail (by decide) hlabel (htext text rfl), .inl rfl⟩

end Line

/-! ### Reports on texts without line breaks -/

structure Node.Unbroken (node : Node) : Prop where
  kind : RiskScan.Unbroken node.kind
  description : RiskScan.Unbroken node.description
  evidence : ∀ text ∈ node.evidence, RiskScan.Unbroken text
  reasoning : ∀ text ∈ node.reasoning, RiskScan.Unbroken text
  mitigations : ∀ text ∈ node.mitigations, RiskScan.Unbroken text

instance (node : Node) : Decidable node.Unbroken :=
  decidable_of_iff (RiskScan.Unbroken node.kind ∧ RiskScan.Unbroken node.description ∧
      (∀ text ∈ node.evidence, RiskScan.Unbroken text) ∧
      (∀ text ∈ node.reasoning, RiskScan.Unbroken text) ∧
      ∀ text ∈ node.mitigations, RiskScan.Unbroken text)
    ⟨fun ⟨kind, description, evidence, reasoning, mitigations⟩ =>
      ⟨kind, description, evidence, reasoning, mitigations⟩,
      fun h => ⟨h.kind, h.description, h.evidence, h.reasoning, h.mitigations⟩⟩

/-- The strings of an outcome break no line, and failures of the file system are named by what was
done. -/
structure AnalysisResult.Unbroken (result : AnalysisResult) : Prop where
  operations : ∀ error ∈ result.suppressedErrors, error.operation = "scan" ∨
    error.operation = "read"
  suppressed : ∀ error ∈ result.suppressedErrors, RiskScan.Unbroken error.path ∧
    RiskScan.Unbroken error.message
  failed : ∀ file ∈ result.failedFiles, RiskScan.Unbroken file.path ∧
    ∀ text ∈ file.message, RiskScan.Unbroken text
  missing : ∀ root ∈ result.missingRoots, RiskScan.Unbroken root

namespace Node

variable {node : Node} {level : Int} {compound : Severity}

theorem wellSet_headTemplate (h : node.Unbroken) : (node.headTemplate level compound).WellSet := by
  have hstyle := node.severity.styleName
  refine Line.wellSet_of_joint ?_ Joint.sound_colon (Ending.sound_style hstyle) h.kind h.description
  simp only [List.forall_mem_cons]
  exact ⟨Quiet.indentation level, hstyle, node.sound_label compound, show Quiet " " by decide,
    List.forall_mem_nil _⟩

theorem wellSet_confidenceTemplate : (node.confidenceTemplate level).WellSet := by
  have hwords : Quiet ("Confidence: " ++ node.confidence.percent) :=
    Quiet.append_iff.mpr ⟨by decide, Quiet.percent _⟩
  have hstyle : StyleName "dim" := by decide
  refine Line.wellSet_of_ending ?_ (Ending.sound_style hstyle) List.not_mem_nil
  simp only [List.forall_mem_cons]
  exact ⟨Quiet.detailIndentation level, hstyle, hwords, List.forall_mem_nil _⟩

theorem wellSet_templates (h : node.Unbroken) :
    ∀ line ∈ node.templates level compound, line.WellSet ∧ line.Closed := by
  rw [templates, List.forall_mem_cons]
  refine ⟨⟨wellSet_headTemplate h, .inl rfl⟩, ?_⟩
  refine List.forall_mem_append.mpr
    ⟨List.forall_mem_append.mpr ⟨List.forall_mem_append.mpr ⟨?_, ?_⟩, ?_⟩, ?_⟩
  · exact Line.wellSet_optional (by decide) h.evidence
  · exact Line.wellSet_optional (by decide) h.reasoning
  · split
    · rw [List.forall_mem_singleton]
      exact ⟨wellSet_confidenceTemplate, .inl rfl⟩
    · exact List.forall_mem_nil _
  · rw [List.forall_mem_map]
    exact fun text htext =>
      ⟨Line.wellSet_detail (by decide) (by decide) (h.mitigations text htext), .inl rfl⟩

end Node

namespace Report

variable {store : Store} {result : AnalysisResult} {node : Node}

theorem wellSet_styled {style words : String} (hstyle : StyleName style) (hwords : Quiet words) :
    (styled style words).WellSet := by
  refine Line.wellSet_of_ending ?_ (Ending.sound_style hstyle) List.not_mem_nil
  simp only [List.forall_mem_cons]
  exact ⟨hstyle, hwords, List.forall_mem_nil _⟩

theorem wellSet_plainLine {words : String} (hwords : Quiet words) : (plainLine words).WellSet := by
  refine Line.wellSet_of_ending ?_ Ending.sound_open List.not_mem_nil
  rw [List.forall_mem_singleton]
  exact hwords

theorem wellSet_suppressedTemplate (h : result.Unbroken) :
    ∀ error ∈ result.suppressedErrors, (suppressedTemplate error).WellSet := by
  intro error herror
  have hoperation : Quiet (error.operation ++ ": ") := by
    obtain hscan | hread := h.operations error herror
    · rw [hscan]
      decide
    · rw [hread]
      decide
  have hstyle : StyleName "dim" := by decide
  have hwords : Joint.Sound { text := error.path, words := " (" } :=
    ⟨show Quiet " (" by decide, show " (" ≠ "" by decide, show opens " (".toList = false by decide⟩
  have htexts := h.suppressed error herror
  refine Line.wellSet_of_joint ?_ hwords (Ending.sound_closing hstyle (by decide) (by decide))
    htexts.1 htexts.2
  simp only [List.forall_mem_cons]
  exact ⟨show Quiet "  " by decide, hstyle, hoperation, List.forall_mem_nil _⟩

theorem wellSet_failedTemplate (h : result.Unbroken) :
    ∀ file ∈ result.failedFiles, (failedTemplate file).WellSet := by
  intro file hfile
  obtain ⟨hpath, hmessage⟩ := h.failed file hfile
  have hstyle : StyleName "dim" := by decide
  have htext : RiskScan.Unbroken (file.message.getD "") := by
    cases hcase : file.message with
    | none => exact List.not_mem_nil
    | some text => exact hmessage text hcase
  refine Line.wellSet_of_joint ?_ Joint.sound_colon (Ending.sound_style hstyle) hpath htext
  simp only [List.forall_mem_cons]
  exact ⟨show Quiet "  " by decide, hstyle, List.forall_mem_nil _⟩

theorem unbroken_intercalate {texts : List String} (h : ∀ text ∈ texts, RiskScan.Unbroken text) :
    RiskScan.Unbroken (", ".intercalate texts) := by
  rw [RiskScan.Unbroken, String.toList_intercalate]
  induction texts with
  | nil => exact List.not_mem_nil
  | cons text texts ih =>
    rw [List.forall_mem_cons] at h
    cases texts with
    | nil =>
      rw [List.map_singleton, List.intercalate_singleton]
      exact h.1
    | cons next texts =>
      rw [List.map_cons, List.map_cons, List.intercalate_cons_cons, List.mem_append,
        List.mem_append, not_or, not_or]
      exact ⟨⟨h.1, by decide⟩, ih h.2⟩

theorem wellSet_missingRootsTemplate (h : result.Unbroken) :
    ∀ line ∈ missingRootsTemplate result.missingRoots, line.WellSet := by
  unfold missingRootsTemplate
  split
  · exact List.forall_mem_nil _
  · have hstyle : StyleName "dim" := by decide
    rw [List.forall_mem_singleton]
    refine Line.wellSet_of_ending ?_ (Ending.sound_style hstyle) (unbroken_intercalate h.missing)
    simp only [List.forall_mem_cons]
    exact ⟨hstyle, show Quiet "Roots not present: " by decide, List.forall_mem_nil _⟩

theorem wellSet_warningTemplates {α : Type} {title : String} {template : α → Line} {items : List α}
    (htitle : Quiet title) (h : ∀ item ∈ items, (template item).WellSet) :
    ∀ line ∈ warningTemplates title template items, line.WellSet := by
  unfold warningTemplates
  split
  · exact List.forall_mem_nil _
  · rw [List.forall_mem_cons, List.forall_mem_map]
    refine ⟨wellSet_styled (by decide) ?_, h⟩
    exact Quiet.append_iff.mpr ⟨Quiet.between (by decide) htitle (by decide), Quiet.natText _⟩

theorem wellSet_summaryTemplates (h : result.Unbroken) :
    ∀ line ∈ summaryTemplates result, line.WellSet := by
  unfold summaryTemplates
  simp only [List.forall_mem_append, List.forall_mem_cons]
  refine ⟨⟨⟨⟨⟨wellSet_plainLine ?_, wellSet_plainLine ?_, wellSet_plainLine ?_,
    List.forall_mem_nil _⟩, ?_⟩, ?_⟩, ?_⟩,
    Line.wellSet_blank, List.forall_mem_nil _⟩
  · exact Quiet.append_iff.mpr ⟨by decide, Quiet.intText _⟩
  · exact Quiet.between (by decide) (Quiet.intText _) (by decide)
  · exact Quiet.append_iff.mpr ⟨by decide, Quiet.intText _⟩
  · exact wellSet_missingRootsTemplate h
  · exact wellSet_warningTemplates (by decide) (wellSet_suppressedTemplate h)
  · exact wellSet_warningTemplates (by decide) (wellSet_failedTemplate h)

theorem wellSet_linkTemplates (h : node.Unbroken) (last : Bool) :
    ∀ line ∈ linkTemplates node last, line.WellSet := by
  have hstyle : StyleName "dim" := by decide
  have hlead : Quiet ("  " ++ (if last then "└─" else "├─") ++ " ") := by cases last <;> decide
  have hlink : (linkTemplate node last).WellSet := by
    refine Line.wellSet_of_joint ?_ Joint.sound_colon Ending.sound_open h.kind h.description
    rw [List.forall_mem_singleton]
    exact hlead
  rw [linkTemplates, List.forall_mem_cons]
  refine ⟨hlink, ?_⟩
  split
  · rename_i reasoning hreasoning
    split
    · exact List.forall_mem_nil _
    · rw [List.forall_mem_singleton]
      refine Line.wellSet_of_ending ?_ (Ending.sound_style hstyle)
        (h.reasoning reasoning hreasoning)
      simp only [List.forall_mem_cons]
      exact ⟨show Quiet "    " by decide, hstyle, show Quiet "→ " by decide, List.forall_mem_nil _⟩
  · exact List.forall_mem_nil _

theorem wellSet_chainTemplates (h : ∀ id, (store.node id).Unbroken) (path : List NodeId) :
    ∀ line ∈ chainTemplates store path, line.WellSet := by
  fun_induction chainTemplates store path with
  | case1 => exact List.forall_mem_nil _
  | case2 id => exact wellSet_linkTemplates (h id) true
  | case3 id rest hrest ih =>
    exact List.forall_mem_append.mpr ⟨wellSet_linkTemplates (h id) false, ih⟩

theorem wellSet_numberedTemplates (h : ∀ id, (store.node id).Unbroken) (number : Nat)
    (paths : List (List NodeId)) : ∀ line ∈ numberedTemplates store number paths, line.WellSet := by
  induction paths generalizing number with
  | nil => exact List.forall_mem_nil _
  | cons path paths ih =>
    rw [numberedTemplates, List.cons_append, List.forall_mem_cons, List.forall_mem_append,
      List.forall_mem_cons]
    have hnumber : Quiet ("Critical Path " ++ toString number ++ ":") :=
      Quiet.between (by decide) (Quiet.natText number) (by decide)
    exact ⟨wellSet_styled (by decide) hnumber, wellSet_chainTemplates h path, Line.wellSet_blank,
      ih (number + 1)⟩

theorem wellSet_verdictTemplates (totalIssues : Int) :
    ∀ line ∈ verdictTemplates totalIssues, line.WellSet := by
  have hfound : Quiet ("⚠️ Found " ++ toString totalIssues ++ " potential security vectors.") :=
    Quiet.between (by decide) (Quiet.intText totalIssues) (by decide)
  unfold verdictTemplates
  split
  · rw [List.forall_mem_cons, List.forall_mem_singleton]
    exact ⟨wellSet_styled (by decide) hfound, wellSet_styled (by decide) (by decide)⟩
  · rw [List.forall_mem_cons, List.forall_mem_singleton]
    exact ⟨wellSet_styled (by decide) (by decide), wellSet_styled (by decide) (by decide)⟩

/-! ### Pages -/

/-- A page whose lines are laid out well. -/
def WellSet (page : Page) : Prop :=
  (∀ line ∈ page.upper, line.WellSet ∧ line.Closed) ∧ page.last.WellSet

theorem wellSet_single {lines : List Line} (h : ∀ line ∈ lines, line.WellSet) :
    ∀ page ∈ lines.map single, WellSet page :=
  List.forall_mem_map.mpr fun line hline => ⟨List.forall_mem_nil _, h line hline⟩

theorem wellSet_criticalPages (h : ∀ id, (store.node id).Unbroken) (paths : List (List NodeId)) :
    ∀ page ∈ criticalPages store paths, WellSet page := by
  rw [criticalPages, List.forall_mem_cons, List.forall_mem_cons]
  have hcount :
      Quiet ("❌ CRITICAL: " ++ toString paths.length ++ " critical reasoning paths detected!") :=
    Quiet.between (by decide) (Quiet.natText _) (by decide)
  refine ⟨⟨List.forall_mem_nil _, wellSet_styled (by decide) hcount⟩, ⟨?_, Line.wellSet_blank⟩,
    wellSet_single (wellSet_numberedTemplates h 1 paths)⟩
  rw [List.forall_mem_singleton]
  exact ⟨wellSet_styled (by decide) (by decide), .inl rfl⟩

end Report

end RiskScan

import Mathlib.Data.List.Basic
import RiskScan.Console
import RiskScan.Proofs.Report.Lines
/-!
# Pages

One print shows a page of lines. No tag reaches beyond the end of a line that a style closes, so a
page is read line by line; and where no text breaks a line, a transcript shows its lines as they are
exactly if each of them does.
-/

namespace RiskScan

open Markup

/-! ### Lines with others below them -/

namespace Line

def blank : Line :=
  { lead := [] }

theorem toList_markup_blank : blank.markup.toList = [] := by
  simp [blank, markup, Ending.markup, escape, escapeFrom, endsInLoneBackslash]

/-- Nothing of the line reaches into the next one. -/
def Closed (line : Line) : Prop :=
  line.ending.closing.isSome = true ∨ line = blank

def markupOfAll (lines : List Line) : String :=
  String.join (lines.map fun line => line.markup ++ "\n")

theorem markupOfAll_cons (line : Line) (lines : List Line) :
    markupOfAll (line :: lines) = line.markup ++ "\n" ++ markupOfAll lines := by
  rw [markupOfAll, List.map_cons, String.join_cons]
  rfl

theorem markupOfAll_append (first second : List Line) :
    markupOfAll (first ++ second) = markupOfAll first ++ markupOfAll second := by
  rw [markupOfAll, List.map_append, String.join_append]
  rfl

/-- What is read of a line and of the end of it. -/
def readLine (line : Line) : List Piece :=
  readFrom 0 line.markup.toList ++ [.shown '\n']

variable {line : Line}

theorem exists_markup_of_closing (h : line.ending.closing.isSome = true) :
    ∃ before, line.markup.toList = before ++ [']'] := by
  obtain ⟨body, hbody⟩ := Option.isSome_iff_exists.mp h
  refine ⟨(String.join (line.lead.map Part.markup)).toList ++
    ((line.joint?.elim "" Joint.markup).toList ++
    ((escape line.ending.text).toList ++ (line.ending.tail.toList ++ '[' :: body.toList))), ?_⟩
  simp [markup, Ending.toList_markup, Ending.after, hbody]

theorem readFrom_append_newline (h : line.Closed) (rest : List Char) :
    readFrom 0 (line.markup.toList ++ '\n' :: rest) = line.readLine ++ readFrom 0 rest := by
  have hnewline : readFrom 0 ('\n' :: rest) = .shown '\n' :: readFrom 0 rest :=
    readFrom_other (by decide) (by decide)
  have hopens : opens ('\n' :: rest) = false := rfl
  obtain hclosing | rfl := h
  · obtain ⟨before, hbefore⟩ := exists_markup_of_closing hclosing
    rw [readLine, hbefore, readFrom_append hopens, hnewline, List.append_assoc]
    · rfl
    · rw [unclosed_append_bracket]
      exact fun h => absurd h (by decide)
    · exact trailingFrom_append_closing
  · rw [readLine, toList_markup_blank, List.nil_append, hnewline, readFrom]
    rfl

end Line

/-! ### Pages -/

structure Page where
  upper : List Line := []
  last : Line
  deriving DecidableEq, Repr

namespace Page

def lines (page : Page) : List Line :=
  page.upper ++ [page.last]

def markup (page : Page) : String :=
  Line.markupOfAll page.upper ++ page.last.markup

def Sound (page : Page) : Prop :=
  (∀ line ∈ page.upper, line.Closed) ∧ ∀ line ∈ page.lines, line.Sound

variable {page : Page}

theorem readFrom_markup (h : ∀ line ∈ page.upper, line.Closed) :
    readFrom 0 page.markup.toList ++ [.shown '\n'] = page.lines.flatMap Line.readLine := by
  obtain ⟨upper, last⟩ := page
  rw [markup, lines, Line.markupOfAll, String.toList_append, String.toList_join]
  induction upper with
  | nil => simp [Line.readLine]
  | cons line upper ih =>
    have hupper := ih fun line hline => h line (List.mem_cons_of_mem _ hline)
    simp only [List.map_cons, List.flatMap_cons, String.toList_append, List.append_assoc,
      List.cons_append]
    rw [show "\n".toList = ['\n'] from rfl, List.singleton_append,
      Line.readFrom_append_newline (h line List.mem_cons_self), List.append_assoc, hupper]

end Page

/-! ### Transcripts -/

namespace Transcript

/-- What a console reads in the prints of a transcript. -/
def pieces (transcript : Transcript) : List Piece :=
  transcript.flatMap fun markup => readFrom 0 markup.toList ++ [.shown '\n']

theorem toList_text (transcript : Transcript) :
    transcript.text.toList = textOf transcript.pieces := by
  induction transcript with
  | nil => rfl
  | cons markup transcript ih =>
    have hprinted : (printed markup).toList =
        textOf (readFrom 0 markup.toList ++ [.shown '\n']) := by
      rw [printed, plain, plainFrom_eq_textOf, String.toList_append, String.toList_ofList,
        textOf_append]
      rfl
    rw [text, List.map_cons, String.join_cons, String.toList_append, ← text, ih, hprinted,
      ← textOf_append]
    rfl

theorem pieces_pages {pages : List Page} (h : ∀ page ∈ pages, page.Sound) :
    pieces (pages.map Page.markup) = (pages.flatMap Page.lines).flatMap Line.readLine := by
  induction pages with
  | nil => rfl
  | cons page pages ih =>
    rw [List.map_cons, pieces, List.flatMap_cons, ← pieces,
      Page.readFrom_markup (h page List.mem_cons_self).1,
      ih fun page hpage => h page (List.mem_cons_of_mem _ hpage), List.flatMap_cons,
      List.flatMap_append]

end Transcript

/-! ### Comparing line by line -/

theorem append_newline_inj {first second more others : List Char} (hfirst : '\n' ∉ first)
    (hsecond : '\n' ∉ second) :
    first ++ '\n' :: more = second ++ '\n' :: others ↔ first = second ∧ more = others := by
  refine ⟨fun heq => ?_, fun ⟨hfirst, hmore⟩ => by rw [hfirst, hmore]⟩
  induction first generalizing second with
  | nil =>
    cases second with
    | nil => exact ⟨rfl, (List.cons.inj heq).2⟩
    | cons c second => exact absurd ((List.cons.inj heq).1 ▸ List.mem_cons_self) hsecond
  | cons c first ih =>
    cases second with
    | nil => exact absurd ((List.cons.inj heq).1 ▸ List.mem_cons_self) hfirst
    | cons d second =>
      rw [List.mem_cons, not_or] at hfirst hsecond
      obtain ⟨rfl, htail⟩ := List.cons.inj heq
      obtain ⟨rfl, hmore⟩ := ih hfirst.2 hsecond.2 htail
      exact ⟨rfl, hmore⟩

/-- Texts without line breaks are determined by what they make when each of them ends a line. -/
theorem flatMap_newline_eq_iff {α : Type} {items : List α} {first second : α → List Char}
    (hfirst : ∀ item ∈ items, '\n' ∉ first item) (hsecond : ∀ item ∈ items, '\n' ∉ second item) :
    (items.flatMap fun item => first item ++ ['\n']) =
      (items.flatMap fun item => second item ++ ['\n']) ↔
      ∀ item ∈ items, first item = second item := by
  induction items with
  | nil => simp
  | cons item items ih =>
    have hrest := ih (fun item hitem => hfirst item (List.mem_cons_of_mem _ hitem))
      (fun item hitem => hsecond item (List.mem_cons_of_mem _ hitem))
    rw [List.forall_mem_cons, ← hrest, List.flatMap_cons, List.flatMap_cons, List.append_assoc,
      List.append_assoc]
    exact append_newline_inj (hfirst item List.mem_cons_self) (hsecond item List.mem_cons_self)

namespace Line

/-- The text of some lines, each with its texts as they are. -/
def textOfAll (lines : List Line) : String :=
  String.join (lines.map fun line => line.text ++ "\n")

/-- The pieces of some lines, each with its texts as they are. -/
def piecesOfAll (lines : List Line) : List Piece :=
  lines.flatMap fun line => line.pieces ++ [.shown '\n']

variable {lines : List Line}

theorem textOf_piecesOfAll : textOf (piecesOfAll lines) = (textOfAll lines).toList := by
  induction lines with
  | nil => rfl
  | cons line lines ih =>
    rw [piecesOfAll, List.flatMap_cons, textOf_append, ← piecesOfAll, ih, textOfAll, textOfAll,
      List.map_cons, String.join_cons, String.toList_append, textOf_append, textOf_pieces,
      String.toList_append]
    rfl

theorem textOf_readLines : textOf (lines.flatMap readLine) =
    lines.flatMap fun line => textOf (readFrom 0 line.markup.toList) ++ ['\n'] := by
  induction lines with
  | nil => rfl
  | cons line lines ih =>
    rw [List.flatMap_cons, List.flatMap_cons, textOf_append, ih, readLine, textOf_append]
    rfl

/-- Legible lines are read as their templates say. -/
theorem readLines_of_legible (h : ∀ line ∈ lines, line.Sound)
    (hlegible : ∀ line ∈ lines, line.Legible) :
    lines.flatMap readLine = piecesOfAll lines := by
  refine List.flatMap_congr fun line hline => ?_
  rw [readLine, readFrom_of_legible (h line hline) (hlegible line hline)]

/-- Lines that are shown as they are all are legible. -/
theorem legible_of_readLines (h : ∀ line ∈ lines, line.Sound)
    (hunbroken : ∀ line ∈ lines, line.Unbroken)
    (htext : textOf (lines.flatMap readLine) = (textOfAll lines).toList) :
    ∀ line ∈ lines, line.Legible := by
  have hverbatim : (textOfAll lines).toList = lines.flatMap fun line => line.text.toList ++
      ['\n'] := by
    rw [textOfAll, String.toList_join, List.flatMap_map]
    exact List.flatMap_congr fun line _ => String.toList_append
  rw [hverbatim, textOf_readLines, flatMap_newline_eq_iff] at htext
  · exact fun line hline => legible_of_text (h line hline) (htext line hline)
  · exact fun line hline => newline_not_mem_shown (h line hline) (hunbroken line hline)
  · exact fun line hline => newline_not_mem_text (h line hline) (hunbroken line hline)

end Line

end RiskScan

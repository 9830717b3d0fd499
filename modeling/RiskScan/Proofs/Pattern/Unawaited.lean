import Mathlib.Data.List.Forall2
import Mathlib.Data.Nat.Find
import RiskScan.Proofs.Pattern.Lines
import RiskScan.Proofs.Pattern.Runs
import RiskScan.Proofs.Pattern.Words
import RiskScan.Signature.BuiltIn
/-!
# Work that nobody awaits

The pattern for work that nobody awaits stays on a line and takes the rest of it, so it matches at
most once on a line: where a word `async` stands whose first equality sign has no word `await`
behind it, and of several such words at the earliest. What it finds in a text is therefore what it
finds line by line.
-/

namespace RiskScan.Signature

open Cursor Pattern Text

/-- On a line, the word `async` stands here, there is an equality sign behind it, and behind the
first of these no word `await`. -/
def UnawaitedAt (chars : List Char) (first : Nat) : Prop :=
  WordAt "async".toList chars first ∧ ∃ sign < chars.length, first + "async".toList.length ≤ sign ∧
    chars[sign]? = some '=' ∧
    (∀ place < sign, first + "async".toList.length ≤ place → chars[place]? ≠ some '=') ∧
    ∀ later < chars.length, sign < later → ¬ WordAt "await".toList chars later

instance (chars : List Char) (first : Nat) : Decidable (UnawaitedAt chars first) := by
  unfold UnawaitedAt
  infer_instance

/-- Some work on a line is not awaited. -/
def Unawaited (chars : List Char) : Prop :=
  ∃ first < chars.length, UnawaitedAt chars first

instance (chars : List Char) : Decidable (Unawaited chars) := by
  unfold Unawaited
  infer_instance

/-- What is found on a line: everything from the earliest work on that is not awaited. -/
def FoundOn (line found : String) : Prop :=
  ∃ first, UnawaitedAt line.toList first ∧ (∀ earlier < first, ¬ UnawaitedAt line.toList earlier) ∧
    found = String.ofList (line.toList.drop first)

variable {chars : List Char} {first : Nat}

/-! ### Matches on a line -/

/-- The word `await`, somewhere on the rest of a line. -/
def awaitLater : Pattern :=
  .seq restOfLine (.seq .wordBoundary (.seq (literal "await") .wordBoundary))

/-- Anything between the word `async` and an equality sign. -/
def betweenSigns : Pattern := .run (.except ['\n', '=']) 0 none

/-- What follows an equality sign behind the word `async`. -/
def unawaitedRest : Pattern :=
  .seq (.unless awaitLater) restOfLine

theorem runEnd_line (hline : '\n' ∉ chars) (hle : first ≤ chars.length) :
    runEnd (.except ['\n']) chars first = chars.length := by
  refine runEnd_eq_of_between hle ?_ ?_
  · intro place _ hlt
    refine ⟨chars[place], List.getElem?_eq_getElem hlt, ?_⟩
    have hne : chars[place] ≠ '\n' := fun hc => hline (hc ▸ List.getElem_mem hlt)
    simp [CharClass.holds, hne]
  · intro c hc
    rw [List.getElem?_eq_none (Nat.le_refl _)] at hc
    cases hc

theorem stops_awaitLater_eq_nil_iff (hline : '\n' ∉ chars) (hle : first ≤ chars.length) :
    awaitLater.stops (inText chars first) = [] ↔
      ∀ later < chars.length, first ≤ later → ¬ WordAt "await".toList chars later := by
  have hword (later : Nat) :
      (Pattern.seq .wordBoundary (.seq (.text "await".toList) .wordBoundary)).stops
      (inText chars later) = if WordAt "await".toList chars later then _ else [] :=
    stops_word (by decide) (by decide) chars later
  have hrest : awaitLater.stops (inText chars first) =
      (restOfLine.stops (inText chars first)).flatMap
      (Pattern.seq .wordBoundary (.seq (.text "await".toList) .wordBoundary)).stops := rfl
  rw [hrest, List.flatMap_eq_nil_iff]
  constructor
  · intro hnone later hlt hlater hawait
    have hmem : inText chars later ∈ restOfLine.stops (inText chars first) :=
      mem_stops_run.mpr ⟨later, hlater, by rw [runEnd_line hline hle]; exact Nat.le_of_lt hlt, rfl⟩
    have hnothing := hnone _ hmem
    rw [hword, if_pos hawait] at hnothing
    cases hnothing
  · intro hnone cursor hcursor
    obtain ⟨later, hlater, -, rfl⟩ := mem_stops_run.mp hcursor
    rw [hword, if_neg]
    intro hawait
    have hlength := hawait.add_length_le (by decide)
    have hpos : 0 < "await".toList.length := by decide
    exact hnone later (by omega) hlater hawait

/-- Where the first equality sign behind a word `async` has to stand. -/
def firstSign (chars : List Char) (first : Nat) : Nat :=
  runEnd (.except ['\n', '=']) chars (first + "async".toList.length)

theorem stops_asyncWithoutAwait (chars : List Char) (first : Nat) :
    asyncWithoutAwait.pattern.stops (inText chars first) =
      if WordAt "async".toList chars first then
        (Pattern.seq (literal "=") unawaitedRest).stops (inText chars (firstSign chars first))
      else [] := by
  have hword : (Pattern.seq .wordBoundary (.seq (.text "async".toList) .wordBoundary)).stops
      (inText chars first) =
      if WordAt "async".toList chars first then [inText chars (first + "async".toList.length)] else
        [] :=
    stops_word (by decide) (by decide) chars first
  have hsign : ∀ place c, chars[place]? = some c → (CharClass.except ['\n', '=']).holds c = true →
      (Pattern.seq (literal "=") unawaitedRest).stops (inText chars place) = [] := by
    intro place c hget hholds
    have hne : chars[place]? ≠ some '=' := by
      rw [hget]
      rintro ⟨⟩
      cases hholds
    have hnone : (literal "=").stops (inText chars place) = [] := stops_text_of_ne hne
    rw [stops, hnone, List.flatMap_nil]
  have hsplit : asyncWithoutAwait.pattern.stops (inText chars first) =
      ((Pattern.seq .wordBoundary (.seq (.text "async".toList) .wordBoundary)).stops
        (inText chars first)).flatMap
        (Pattern.seq betweenSigns (.seq (literal "=") unawaitedRest)).stops := by
    simp only [stops, List.flatMap_assoc]
    rfl
  rw [hsplit, hword]
  split
  · rw [List.flatMap_singleton, stops, betweenSigns, flatMap_stops_run hsign, firstSign]
  · rfl

/-- The sign in question is the one at which the characters end that are neither a sign nor a line
end. -/
theorem unawaitedAt_iff (hline : '\n' ∉ chars) :
    UnawaitedAt chars first ↔ WordAt "async".toList chars first ∧
      chars[firstSign chars first]? = some '=' ∧
      ∀ later < chars.length, firstSign chars first + 1 ≤ later →
      ¬ WordAt "await".toList chars later := by
  constructor
  · rintro ⟨hasync, sign, -, hle, hsign, hearliest, hawait⟩
    have hfirst : firstSign chars first = sign := by
      refine runEnd_eq_of_between hle ?_ ?_
      · intro place hplace hlt
        have hsignLt : sign < chars.length := (List.getElem?_eq_some_iff.mp hsign).1
        have hget := List.getElem?_eq_getElem (Nat.lt_trans hlt hsignLt)
        have hnoSign := hearliest place hlt hplace
        rw [hget] at hnoSign
        have hnoEnd : chars[place] ≠ '\n' := fun hc => hline (hc ▸ List.getElem_mem _)
        refine ⟨_, hget, ?_⟩
        simpa [CharClass.holds, hnoEnd] using hnoSign
      · intro c hc
        rw [hsign] at hc
        cases hc
        rfl
    rw [hfirst]
    exact ⟨hasync, hsign, hawait⟩
  · rintro ⟨hasync, hsign, hawait⟩
    refine ⟨hasync, firstSign chars first, (List.getElem?_eq_some_iff.mp hsign).1, le_runEnd _ _ _,
      hsign, ?_, hawait⟩
    intro place hlt hle hplace
    obtain ⟨c, hget, hholds⟩ := exists_of_lt_runEnd hle hlt
    rw [hplace] at hget
    cases hget
    cases hholds

theorem UnawaitedAt.lt_length (h : UnawaitedAt chars first) : first < chars.length := by
  have hlength := h.1.add_length_le (by decide)
  have hpos : 0 < "async".toList.length := by decide
  omega

/-- A match on a line begins with work that is not awaited and goes to the end of the line. -/
theorem endsBy_asyncWithoutAwait (hline : '\n' ∉ chars) :
    EndsBy asyncWithoutAwait.pattern chars fun first stop => UnawaitedAt chars first ∧
    stop = chars.length where
  stop_iff {first} hplace stop := by
    rw [matchEnd?_eq, stops_asyncWithoutAwait, unawaitedAt_iff hline]
    by_cases hasync : WordAt "async".toList chars first
    · rw [if_pos hasync, stops]
      by_cases hsign : chars[firstSign chars first]? = some '='
      · have hsignStops : (literal "=").stops (inText chars (firstSign chars first)) =
            [inText chars (firstSign chars first + 1)] := stops_text_singleton hsign
        have hle : firstSign chars first + 1 ≤ chars.length :=
          (List.getElem?_eq_some_iff.mp hsign).1
        rw [hsignStops, List.flatMap_singleton, unawaitedRest, stops, stops]
        by_cases hawait : awaitLater.stops (inText chars (firstSign chars first + 1)) = []
        · have hend := head?_stops_run (.except ['\n']) chars (firstSign chars first + 1)
          rw [runEnd_line hline hle] at hend
          rw [hawait, List.isEmpty_nil, if_pos rfl, List.flatMap_singleton, restOfLine, hend]
          have hnone := (stops_awaitLater_eq_nil_iff hline hle).mp hawait
          simp only [Option.map_some, Option.some.injEq]
          constructor
          · rintro rfl
            exact ⟨⟨hasync, hsign, hnone⟩, rfl⟩
          · rintro ⟨-, rfl⟩
            rfl
        · rw [List.isEmpty_eq_false_iff.mpr hawait, if_neg Bool.false_ne_true]
          refine iff_of_false (by intro hfound; cases hfound) ?_
          rintro ⟨⟨-, -, hnone⟩, -⟩
          exact hawait ((stops_awaitLater_eq_nil_iff hline hle).mpr hnone)
      · have hsignStops : (literal "=").stops (inText chars (firstSign chars first)) = [] :=
          stops_text_of_ne hsign
        rw [hsignStops]
        exact iff_of_false (by intro hfound; cases hfound) fun h => hsign h.1.2.1
    · rw [if_neg hasync]
      exact iff_of_false (by intro hfound; cases hfound) fun h => hasync h.1.1
  lt := by
    rintro first _ ⟨hfirst, rfl⟩
    exact hfirst.lt_length
  isPlace := by
    rintro first _ ⟨hfirst, -⟩
    exact Nat.le_of_lt hfirst.lt_length

/-! ### Matches in a text -/

/-- On a line on which all work is awaited nothing is found. -/
theorem find_of_not_unawaited {line : String} (hline : '\n' ∉ line.toList)
    (h : ¬ Unawaited line.toList) :
    asyncWithoutAwait.find line = [] := by
  have hfound := (endsBy_asyncWithoutAwait hline).matchesIn_eq_iff.mpr
    (.done fun first _ _ hends => h ⟨first, hends.1.lt_length, hends.1⟩)
  rw [find, Pattern.find, hfound, List.map_nil]

/-- On a line on which some work is not awaited one match is found, which takes the rest of the
line. -/
theorem find_of_unawaited {line : String} (hline : '\n' ∉ line.toList) (h : Unawaited line.toList) :
    ∃ found, FoundOn line found ∧ asyncWithoutAwait.find line = [found] := by
  obtain ⟨first, -, hfirst⟩ := h
  have hexists : ∃ first, UnawaitedAt line.toList first := ⟨first, hfirst⟩
  have hearliest : ∀ earlier < Nat.find hexists, ¬ UnawaitedAt line.toList earlier :=
    fun earlier hlt => Nat.find_min hexists hlt
  refine ⟨_, ⟨Nat.find hexists, Nat.find_spec hexists, hearliest, rfl⟩, ?_⟩
  have hfound := (endsBy_asyncWithoutAwait hline).matchesIn_eq_iff.mpr
    (.next (Nat.zero_le _) ⟨Nat.find_spec hexists, rfl⟩
      (fun other _ hlt stop hends => hearliest other hlt hends.1)
      (.done fun first hbehind _ hends => Nat.not_le_of_lt hends.1.lt_length hbehind))
  rw [find, Pattern.find, hfound, List.map_singleton, List.take_of_length_le]
  rw [List.length_drop]

/-- Work that is not awaited is found line by line: one match for each line that has some, from the
earliest on such a line to its end, and nothing else. So two texts with a line end between them give
the matches of each. -/
theorem asyncWithoutAwait_lines (content : String) :
    asyncWithoutAwait.count content = (linesOf content).countP (Unawaited ·.toList) ∧
      List.Forall₂ FoundOn ((linesOf content).filter (Unawaited ·.toList))
        (asyncWithoutAwait.find content) ∧
      ∀ following : String, asyncWithoutAwait.find (content ++ "\n" ++ following) =
        asyncWithoutAwait.find content ++ asyncWithoutAwait.find following := by
  have hstays : asyncWithoutAwait.pattern.staysOnLine = true := by decide
  have hlines : ∀ lines : List String, (∀ line ∈ lines, '\n' ∉ line.toList) →
      List.Forall₂ FoundOn (lines.filter (Unawaited ·.toList))
        (lines.flatMap asyncWithoutAwait.find) := by
    intro lines hends
    induction lines with
    | nil => exact .nil
    | cons line lines ih =>
      obtain ⟨hline, hends⟩ := List.forall_mem_cons.mp hends
      rw [List.flatMap_cons]
      by_cases hunawaited : Unawaited line.toList
      · obtain ⟨found, hfound, heq⟩ := find_of_unawaited hline hunawaited
        rw [List.filter_cons, if_pos (decide_eq_true hunawaited), heq]
        exact .cons hfound (ih hends)
      · rw [List.filter_cons, if_neg (by simpa using hunawaited),
          find_of_not_unawaited hline hunawaited]
        exact ih hends
  have hfound := hlines (linesOf content) fun _ => lineEnd_notMem_of_mem_linesOf
  have hcontent : asyncWithoutAwait.find content =
      (linesOf content).flatMap asyncWithoutAwait.find :=
    find_eq_flatMap_linesOf hstays content
  rw [← hcontent] at hfound
  refine ⟨?_, hfound, find_append_lineEnd hstays content⟩
  rw [count, ← hfound.length_eq, List.countP_eq_length_filter]

/-- Of the words `async` on a line, the earliest without a word `await` behind its sign counts. -/
example : asyncWithoutAwait.find "async f = await g; async h = async k = g()\nasync m" =
    ["async h = async k = g()"] := by
  decide +kernel

end RiskScan.Signature

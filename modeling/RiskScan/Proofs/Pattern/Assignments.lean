import Mathlib.Data.Finset.Filter
import Mathlib.Data.Finset.Range
import RiskScan.Analyzer.Registry
import RiskScan.Proofs.Pattern.Counting
import RiskScan.Proofs.Pattern.Runs
import RiskScan.Proofs.Pattern.Words
/-!
# Assignments to the window object

The pattern for such an assignment takes the rest of the line on which the equality sign stands.
Another assignment that begins in this stretch gives no match of its own: the count in the evidence
is the number of assignments exactly if none begins before the line ends on which another has its
sign.
-/

namespace RiskScan.Signature

open Cursor Pattern Text

/-- How a character of a key changes whether the next one stands inside a pair of brackets. -/
def keyStep : (inside : Bool) → (c : Char) → Option Bool
  | false, '[' => some true
  | true, ']' => some false
  | inside, c => if ['[', ']', '\n'].contains c then none else some inside

/-- A key holds no line end, and its brackets come in pairs without brackets inside. -/
def isKey : (inside : Bool) → (key : List Char) → Bool
  | inside, [] => !inside
  | inside, c :: key => ((keyStep inside c).map fun inside => isKey inside key).getD false

/-- After white space, if there is any, comes the word `null`. -/
def NullFrom (text : List Char) (start : Nat) : Prop :=
  ∃ word < text.length, start ≤ word ∧
    (∀ place < word, start ≤ place → ∀ c ∈ text[place]?, isBlank c = true) ∧
    "null".toList <+: text.drop word ∧ ∀ c ∈ text[word + "null".toList.length]?, isWord c = false

instance (text : List Char) (start : Nat) : Decidable (NullFrom text start) :=
  inferInstanceAs (Decidable (∃ word < text.length, _))

/-- An assignment of something other than `null` to an entry of the window object: where it begins,
where the bracket behind the key stands, and where the equality sign. -/
structure Assignment (text : List Char) (first close sign : Nat) : Prop where
  opens : "window[".toList <+: text.drop first
  le : first + "window[".toList.length ≤ close
  key : isKey false ((text.take close).drop (first + "window[".toList.length)) = true
  closes : text[close]? = some ']'
  lt : close < sign
  blank : ∀ place < sign, close < place → ∀ c ∈ text[place]?, isBlank c = true
  equals : text[sign]? = some '='
  single : text[sign + 1]? ≠ some '='
  notNull : ¬ NullFrom text (sign + 1)

instance (text : List Char) (first close sign : Nat) :
    Decidable (Assignment text first close sign) :=
  decidable_of_iff ("window[".toList <+: text.drop first ∧ first + "window[".toList.length ≤ close ∧
      isKey false ((text.take close).drop (first + "window[".toList.length)) = true ∧
      text[close]? = some ']' ∧ close < sign ∧
      (∀ place < sign, close < place → ∀ c ∈ text[place]?, isBlank c = true) ∧
      text[sign]? = some '=' ∧ text[sign + 1]? ≠ some '=' ∧ ¬ NullFrom text (sign + 1))
    ⟨fun ⟨opens, le, key, closes, lt, blank, equals, single, notNull⟩ =>
        ⟨opens, le, key, closes, lt, blank, equals, single, notNull⟩,
      fun ⟨opens, le, key, closes, lt, blank, equals, single, notNull⟩ =>
        ⟨opens, le, key, closes, lt, blank, equals, single, notNull⟩⟩

/-- The places of a text at which an assignment begins. -/
def assignments (text : List Char) : Finset Nat :=
  (Finset.range text.length).filter fun first =>
    ∃ close < text.length, ∃ sign < text.length, Assignment text first close sign

/-- The end of the line on which a place lies. -/
def lineEnd (text : List Char) (place : Nat) : Nat :=
  runEnd (.except ['\n']) text place

/-- A match for an assignment goes on to the end of the line of the sign. -/
def Pollutes (text : List Char) (first stop : Nat) : Prop :=
  ∃ close sign, Assignment text first close sign ∧ stop = lineEnd text sign

variable {text : List Char} {inside : Bool} {start first close sign place stop : Nat} {c : Char}

/-! ### Keys -/

/-- The place of the bracket behind a key that goes on here. -/
def closingFrom? : (inside : Bool) → (place : Nat) → (rest : List Char) → Option Nat
  | _, _, [] => none
  | inside, place, c :: rest =>
    if inside = false ∧ c = ']' then some place
    else (keyStep inside c).bind fun inside => closingFrom? inside (place + 1) rest

theorem closingFrom?_eq_some_iff {rest : List Char} :
    closingFrom? inside place rest = some close ↔
      ∃ count, close = place + count ∧ rest[count]? = some ']' ∧
      isKey inside (rest.take count) = true := by
  induction rest generalizing inside place with
  | nil => simp [closingFrom?]
  | cons c rest ih =>
    rw [closingFrom?]
    by_cases hhere : inside = false ∧ c = ']'
    · obtain ⟨rfl, rfl⟩ := hhere
      rw [if_pos ⟨rfl, rfl⟩]
      constructor
      · rintro ⟨⟩
        exact ⟨0, rfl, rfl, rfl⟩
      · rintro ⟨_ | count, rfl, -, hkey⟩
        · rfl
        · cases hkey
    · rw [if_neg hhere]
      constructor
      · intro hclose
        obtain ⟨next, hstep, hnext⟩ := Option.bind_eq_some_iff.mp hclose
        obtain ⟨count, rfl, hget, hkey⟩ := ih.mp hnext
        refine ⟨count + 1, by omega, hget, ?_⟩
        rw [List.take_succ_cons, isKey, hstep]
        exact hkey
      · rintro ⟨_ | count, rfl, hget, hkey⟩
        · have hinside : inside = false := by simpa [isKey] using hkey
          exact absurd ⟨hinside, Option.some.inj hget⟩ hhere
        · rw [List.take_succ_cons, isKey] at hkey
          cases hstep : keyStep inside c with
          | none =>
            rw [hstep] at hkey
            cases hkey
          | some next =>
            rw [hstep] at hkey
            rw [Option.bind_some, ih]
            exact ⟨count, by omega, hget, hkey⟩

/-- The place of the bracket behind a key that begins here. -/
def closing? (text : List Char) (start : Nat) : Option Nat :=
  closingFrom? false start (text.drop start)

theorem closing?_eq_some_iff : closing? text start = some close ↔
    start ≤ close ∧ text[close]? = some ']' ∧
    isKey false ((text.take close).drop start) = true := by
  rw [closing?, closingFrom?_eq_some_iff]
  constructor
  · rintro ⟨count, rfl, hget, hkey⟩
    rw [List.getElem?_drop] at hget
    rw [List.drop_take, Nat.add_sub_cancel_left]
    exact ⟨Nat.le_add_right _ _, hget, hkey⟩
  · rintro ⟨hle, hget, hkey⟩
    refine ⟨close - start, by omega, ?_, ?_⟩
    · rw [List.getElem?_drop, Nat.add_sub_cancel' hle]
      exact hget
    · rwa [List.drop_take] at hkey

theorem closingFrom?_end (hget : text[start]? = none) :
    closingFrom? inside start (text.drop start) = none := by
  rw [List.drop_eq_nil_of_le (List.getElem?_eq_none_iff.mp hget), closingFrom?]

theorem closingFrom?_of_none (hget : text[start]? = some c) (hhere : ¬ (inside = false ∧ c = ']'))
    (hstep : keyStep inside c = none) : closingFrom? inside start (text.drop start) = none := by
  rw [drop_eq_cons hget, closingFrom?, if_neg hhere, hstep, Option.bind_none]

theorem closingFrom?_of_some {next : Bool} (hget : text[start]? = some c)
    (hhere : ¬ (inside = false ∧ c = ']')) (hstep : keyStep inside c = some next) :
    closingFrom? inside start (text.drop start) = closingFrom? next (start + 1)
      (text.drop (start + 1)) := by
  rw [drop_eq_cons hget, closingFrom?, if_neg hhere, hstep, Option.bind_some]

/-- What stands in a key without being a bracket. -/
def keyChar : CharClass := .except ['[', ']', '\n']

theorem keyChar_holds_iff : keyChar.holds c = true ↔ c ≠ '[' ∧ c ≠ ']' ∧ c ≠ '\n' := by
  simp [keyChar, CharClass.holds]

theorem eq_lineEnd_of_not_holds (hholds : keyChar.holds c = false) (hopen : c ≠ '[')
    (hclose : c ≠ ']') :
    c = '\n' := by
  by_contra hend
  exact nomatch hholds.symm.trans (keyChar_holds_iff.mpr ⟨hopen, hclose, hend⟩)

theorem keyStep_of_holds (hholds : keyChar.holds c = true) (inside : Bool) :
    keyStep inside c = some inside := by
  obtain ⟨hopen, hclose, hend⟩ := keyChar_holds_iff.mp hholds
  rw [keyStep.eq_3 _ _ (fun _ => hopen) (fun _ => hclose)]
  simp [hopen, hclose, hend]

/-- A pair of brackets inside a key ends where a run of other characters does, if a bracket
follows. -/
theorem closingFrom?_inside (text : List Char) (start : Nat) :
    closingFrom? true start (text.drop start) =
      if text[runEnd keyChar text start]? =
        some ']' then closing? text (runEnd keyChar text start + 1) else none := by
  have hother : ∀ c : Char, ¬ (true = false ∧ c = ']') := nofun
  induction start using run_induction keyChar text with
  | ends start hends =>
    rw [runEnd_of_ends hends]
    cases hget : text[start]? with
    | none =>
      rw [closingFrom?_end hget]
      rfl
    | some c =>
      by_cases hclose : c = ']'
      · subst hclose
        rw [if_pos rfl, closingFrom?_of_some hget (hother _) rfl, closing?]
      · rw [if_neg fun heq => hclose (Option.some.inj heq), closingFrom?_of_none hget (hother _)]
        by_cases hopen : c = '['
        · rw [hopen]
          rfl
        · rw [eq_lineEnd_of_not_holds (hends c hget) hopen hclose]
          rfl
  | goesOn start c hget hholds ih =>
    rw [runEnd_of_holds hget hholds,
      closingFrom?_of_some hget (hother _) (keyStep_of_holds hholds true), ih]

/-- One piece of a key: a character that is no bracket, or a pair of brackets. -/
def keyPiece : Pattern :=
  .either (.one keyChar) (.seq (literal "[") (.seq (.run keyChar 0 none) (literal "]")))

theorem stops_keyPiece_char (hget : text[start]? = some c) (hholds : keyChar.holds c = true) :
    keyPiece.stops (inText text start) = [inText text (start + 1)] := by
  have hopen : (literal "[").stops (inText text start) = [] := by
    refine stops_text_of_ne ?_
    rw [hget]
    exact fun heq => (keyChar_holds_iff.mp hholds).1 (Option.some.inj heq)
  rw [keyPiece, stops, stops_one_of_holds hget hholds, stops, hopen]
  rfl

theorem stops_keyPiece_open (hget : text[start]? = some '[') :
    keyPiece.stops (inText text start) =
      (literal "]").stops (inText text (runEnd keyChar text (start + 1))) := by
  have hnone : (Pattern.one keyChar).stops (inText text start) = [] := by
    refine stops_one_of_not_holds fun c hc => ?_
    rw [hget] at hc
    cases hc
    rfl
  have hopen : (literal "[").stops (inText text start) = [inText text (start + 1)] :=
    stops_text_singleton hget
  have hclose : ∀ place c, text[place]? = some c → keyChar.holds c = true →
      (literal "]").stops (inText text place) = [] := by
    intro place c hc hholds
    refine stops_text_of_ne ?_
    rw [hc]
    exact fun heq => (keyChar_holds_iff.mp hholds).2.1 (Option.some.inj heq)
  rw [keyPiece, stops, hnone, List.nil_append, stops, hopen, List.flatMap_singleton, stops,
    flatMap_stops_run hclose]

theorem stops_keyPiece_other (hopen : text[start]? ≠ some '[')
    (hother : ∀ c, text[start]? = some c → keyChar.holds c = false) :
    keyPiece.stops (inText text start) = [] := by
  have hnone : (literal "[").stops (inText text start) = [] := stops_text_of_ne hopen
  rw [keyPiece, stops, stops_one_of_not_holds hother, stops, hnone]
  rfl

/-- The place behind the bracket that closes a key, if there is one. -/
def behindKey (text : List Char) (start : Nat) : List Cursor :=
  ((closing? text start).map fun close => inText text (close + 1)).toList

/-- A key goes on with a piece or is closed here. -/
theorem behindKey_step {next : Cursor → List Cursor}
    (hnext : ∀ place > start, next (inText text place) = behindKey text place) :
    (keyPiece.stops (inText text start)).flatMap next ++ (literal "]").stops (inText text start) =
      behindKey text start := by
  by_cases hclose : text[start]? = some ']'
  · have hhere : (literal "]").stops (inText text start) = [inText text (start + 1)] :=
      stops_text_singleton hclose
    have hpiece : keyPiece.stops (inText text start) = [] := by
      refine stops_keyPiece_other (by rw [hclose]; nofun) fun c hc => ?_
      rw [hclose] at hc
      cases hc
      rfl
    rw [hpiece, hhere, behindKey, closing?, drop_eq_cons hclose, closingFrom?, if_pos ⟨rfl, rfl⟩]
    rfl
  · have hnone : (literal "]").stops (inText text start) = [] := stops_text_of_ne hclose
    rw [hnone, List.append_nil]
    cases hget : text[start]? with
    | none =>
      rw [stops_keyPiece_other (by rw [hget]; nofun) (by rw [hget]; nofun), behindKey, closing?,
        closingFrom?_end hget]
      rfl
    | some c =>
      have hhere : ¬ (false = false ∧ c = ']') := fun h => hclose (by rw [hget, h.2])
      cases hholds : keyChar.holds c with
      | true =>
        rw [stops_keyPiece_char hget hholds, List.flatMap_singleton, hnext _ (Nat.lt_succ_self _),
          behindKey, behindKey, closing?, closing?,
          closingFrom?_of_some hget hhere (keyStep_of_holds hholds false)]
      | false =>
        by_cases hopen : c = '['
        · subst hopen
          rw [stops_keyPiece_open hget, behindKey, closing?, closingFrom?_of_some hget hhere rfl,
            closingFrom?_inside]
          split
          next hend =>
            have hstop : (literal "]").stops (inText text (runEnd keyChar text (start + 1))) =
                [inText text (runEnd keyChar text (start + 1) + 1)] := stops_text_singleton hend
            have hle := le_runEnd keyChar text (start + 1)
            rw [hstop, List.flatMap_singleton, hnext _ (by omega), behindKey]
          next hend =>
            have hstop : (literal "]").stops (inText text (runEnd keyChar text (start + 1))) = [] :=
              stops_text_of_ne hend
            rw [hstop]
            rfl
        · have hstep : keyStep false c = none := by
            rw [eq_lineEnd_of_not_holds hholds hopen fun heq => hhere ⟨rfl, heq⟩]
            rfl
          have hpiece : keyPiece.stops (inText text start) = [] := by
            refine stops_keyPiece_other
              (by rw [hget]; exact fun heq => hopen (Option.some.inj heq)) ?_
            intro d hd
            rw [hget] at hd
            cases hd
            exact hholds
          rw [hpiece, behindKey, closing?, closingFrom?_of_none hget hhere hstep]
          rfl

/-- Behind the pieces of a key there is at most one place for the closing bracket. -/
theorem stops_pieces (room : List Char) (hroom : text.length - start ≤ room.length) :
    (manyStops keyPiece.stops room (inText text start)).flatMap (literal "]").stops =
      behindKey text start := by
  induction room generalizing start with
  | nil =>
    have hget : text[start]? = none := by
      rw [List.getElem?_eq_none_iff]
      rw [List.length_nil] at hroom
      omega
    have hnone : (literal "]").stops (inText text start) = [] :=
      stops_text_of_ne (by rw [hget]; nofun)
    rw [manyStops, List.flatMap_singleton, hnone, behindKey, closing?, closingFrom?_end hget]
    rfl
  | cons _ room ih =>
    rw [manyStops, List.flatMap_append, List.flatMap_singleton, List.flatMap_assoc]
    refine behindKey_step fun place hplace => ih ?_
    rw [List.length_cons] at hroom
    omega

theorem stops_windowKey (text : List Char) (first : Nat) : windowKey.stops (inText text first) =
    if "window[".toList <+: text.drop first then behindKey text (first + "window[".toList.length)
      else [] := by
  have hsplit : windowKey.stops (inText text first) =
      ((literal "window[").stops (inText text first)).flatMap
      (Pattern.seq (.many keyPiece) (literal "]")).stops := rfl
  have hmany (start : Nat) : (Pattern.many keyPiece).stops (inText text start) =
      manyStops keyPiece.stops (text.drop start) (inText text start) := by
    rw [stops, inText]
  have hliteral : (literal "window[").stops (inText text first) =
      ((inText text first).skip? "window[".toList).toList := by
    rw [literal, stops]
  rw [hsplit, hliteral]
  by_cases hopens : "window[".toList <+: text.drop first
  · rw [skip?_inText hopens, Option.toList_some, List.flatMap_singleton, if_pos hopens, stops,
      hmany]
    exact stops_pieces _ (Nat.le_of_eq List.length_drop.symm)
  · rw [skip?_inText_of_not_isPrefix hopens, if_neg hopens]
    rfl

/-! ### The sign and the value -/

/-- Where blanks are followed by a text that begins with no blank, they end there. -/
theorem runEnd_blank (hle : start ≤ stop)
    (hblank : ∀ place < stop, start ≤ place → ∀ c ∈ text[place]?, isBlank c = true)
    (hget : text[stop]? = some c) (hc : isBlank c = false) : runEnd .blank text start = stop := by
  refine runEnd_eq_of_between hle (fun place hplace hlt => ?_) fun d hd => ?_
  · have hlength : place < text.length := Nat.lt_trans hlt (List.getElem?_eq_some_iff.mp hget).1
    have hchar := List.getElem?_eq_getElem hlength
    exact ⟨_, hchar, hblank place hlt hplace _ hchar⟩
  · rw [hget] at hd
    cases hd
    exact hc

theorem isBlank_of_lt_runEnd {start : Nat} :
    ∀ place < runEnd .blank text start, start ≤ place → ∀ c ∈ text[place]?, isBlank c = true := by
  intro place hlt hle c hc
  obtain ⟨d, hd, hblank⟩ := exists_of_lt_runEnd hle hlt
  obtain rfl : d = c := Option.some.inj (hd.symm.trans hc)
  exact hblank

/-- The word `null`, behind blanks. -/
def nullAhead : Pattern :=
  .seq blanks (.seq (literal "null") .wordBoundary)

theorem nullFrom_iff : NullFrom text start ↔
    "null".toList <+: text.drop (runEnd .blank text start) ∧
    ∀ c ∈ text[runEnd .blank text start + "null".toList.length]?, isWord c = false := by
  constructor
  · rintro ⟨word, -, hle, hblank, hnull, hafter⟩
    have hget : text[word]? = some 'n' := by
      obtain ⟨rest, hrest⟩ := hnull
      rw [← List.head?_drop, ← hrest]
      rfl
    rw [runEnd_blank hle hblank hget (by decide)]
    exact ⟨hnull, hafter⟩
  · rintro ⟨hnull, hafter⟩
    have hlength := hnull.length_le
    rw [List.length_drop] at hlength
    have hpos : 0 < "null".toList.length := by decide
    exact ⟨runEnd .blank text start, by omega, le_runEnd _ _ _, isBlank_of_lt_runEnd, hnull, hafter⟩

theorem stops_nullAhead_eq_nil_iff : nullAhead.stops (inText text start) = [] ↔
    ¬ NullFrom text start := by
  have hblank : ∀ place c, text[place]? = some c → CharClass.blank.holds c = true →
      (Pattern.seq (literal "null") .wordBoundary).stops (inText text place) = [] := by
    intro place c hget hholds
    have hne : text[place]? ≠ some 'n' := by
      rw [hget]
      rintro ⟨⟩
      cases hholds
    have hnone : (literal "null").stops (inText text place) = [] := stops_text_of_ne hne
    rw [stops, hnone]
    rfl
  rw [nullAhead, stops, blanks, flatMap_stops_run hblank, literal, stops_text_boundary (by decide),
    nullFrom_iff]
  split
  next h => exact iff_of_false (List.cons_ne_nil _ _) (not_not_intro h)
  next h => exact iff_of_true rfl h

/-- What follows the sign of an assignment. -/
def assignedValue : Pattern :=
  .seq (.unless (literal "=")) (.seq (.unless nullAhead) restOfLine)

theorem head?_stops_assignedValue (text : List Char) (start : Nat) :
    (assignedValue.stops (inText text start)).head? =
      if text[start]? ≠ some '=' ∧
      ¬ NullFrom text start then some (inText text (lineEnd text start)) else none := by
  rw [assignedValue, stops, stops]
  by_cases hsign : text[start]? = some '='
  · have hstop : (literal "=").stops (inText text start) = [inText text (start + 1)] :=
      stops_text_singleton hsign
    have hnot : ¬ (text[start]? ≠ some '=' ∧ ¬ NullFrom text start) := fun h => h.1 hsign
    rw [hstop, if_neg hnot]
    rfl
  · have hnone : (literal "=").stops (inText text start) = [] := stops_text_of_ne hsign
    rw [hnone, List.isEmpty_nil, if_pos rfl, List.flatMap_singleton, stops, stops]
    by_cases hnull : NullFrom text start
    · have hnot : ¬ (text[start]? ≠ some '=' ∧ ¬ NullFrom text start) := fun h => h.2 hnull
      rw [List.isEmpty_eq_false_iff.mpr (mt stops_nullAhead_eq_nil_iff.mp (not_not_intro hnull)),
        if_neg hnot]
      rfl
    · rw [stops_nullAhead_eq_nil_iff.mpr hnull, List.isEmpty_nil, if_pos rfl,
        List.flatMap_singleton, if_pos ⟨hsign, hnull⟩]
      exact head?_stops_run _ text start

/-- The parts of an assignment can be found one after the other. -/
theorem assignment_iff : Assignment text first close sign ↔ "window[".toList <+: text.drop first ∧
    closing? text (first + "window[".toList.length) = some close ∧
    runEnd .blank text (close + 1) = sign ∧
    text[sign]? = some '=' ∧ text[sign + 1]? ≠ some '=' ∧ ¬ NullFrom text (sign + 1) := by
  rw [closing?_eq_some_iff]
  constructor
  · rintro ⟨hopens, hle, hkey, hcloses, hlt, hblank, hequals, hsingle, hnotNull⟩
    have hsign := runEnd_blank hlt hblank hequals (by decide)
    exact ⟨hopens, ⟨hle, hcloses, hkey⟩, hsign, hequals, hsingle, hnotNull⟩
  · rintro ⟨hopens, ⟨hle, hcloses, hkey⟩, rfl, hequals, hsingle, hnotNull⟩
    exact ⟨hopens, hle, hkey, hcloses, le_runEnd _ _ _, isBlank_of_lt_runEnd, hequals,
      hsingle, hnotNull⟩

/-- Behind a key the sign has to come after the blanks. -/
theorem head?_stops_behindKey (text : List Char) (start : Nat) :
    ((Pattern.seq blanks (.seq (literal "=") assignedValue)).stops (inText text start)).head? =
      if text[runEnd .blank text start]? = some '=' ∧
      text[runEnd .blank text start + 1]? ≠ some '=' ∧
          ¬ NullFrom text (runEnd .blank text start + 1) then
        some (inText text (lineEnd text (runEnd .blank text start)))
      else none := by
  have hblank : ∀ place c, text[place]? = some c → CharClass.blank.holds c = true →
      (Pattern.seq (literal "=") assignedValue).stops (inText text place) = [] := by
    intro place c hget hholds
    have hne : text[place]? ≠ some '=' := by
      rw [hget]
      rintro ⟨⟩
      cases hholds
    have hnone : (literal "=").stops (inText text place) = [] := stops_text_of_ne hne
    rw [stops, hnone]
    rfl
  rw [stops, blanks, flatMap_stops_run hblank, stops]
  by_cases hsign : text[runEnd .blank text start]? = some '='
  · have hstop : (literal "=").stops (inText text (runEnd .blank text start)) =
        [inText text (runEnd .blank text start + 1)] := stops_text_singleton hsign
    have hend : lineEnd text (runEnd .blank text start + 1) =
        lineEnd text (runEnd .blank text start) :=
      (runEnd_of_holds hsign rfl).symm
    rw [hstop, List.flatMap_singleton, head?_stops_assignedValue, hend]
    simp only [hsign, true_and]
  · have hnone : (literal "=").stops (inText text (runEnd .blank text start)) = [] :=
      stops_text_of_ne hsign
    have hnot : ¬ (text[runEnd .blank text start]? = some '=' ∧
        text[runEnd .blank text start + 1]? ≠ some '=' ∧
        ¬ NullFrom text (runEnd .blank text start + 1)) := fun h => hsign h.1
    rw [hnone, if_neg hnot]
    rfl

/-- A match begins with an assignment and goes to the end of the line of its sign. -/
theorem endsBy_memoryPollution (text : List Char) :
    EndsBy memoryPollution.pattern text (Pollutes text) where
  stop_iff {first} _ stop := by
    have hsplit : memoryPollution.pattern.stops (inText text first) =
        (windowKey.stops (inText text first)).flatMap
        (Pattern.seq blanks (.seq (literal "=") assignedValue)).stops := rfl
    simp only [Pollutes, assignment_iff]
    rw [matchEnd?_eq, hsplit, stops_windowKey]
    by_cases hopens : "window[".toList <+: text.drop first
    · rw [if_pos hopens, behindKey]
      cases hclose : closing? text (first + "window[".toList.length) with
      | none =>
        refine iff_of_false nofun ?_
        rintro ⟨close, sign, ⟨-, h, -⟩, -⟩
        cases h
      | some close =>
        rw [Option.map_some, Option.toList_some, List.flatMap_singleton, head?_stops_behindKey]
        split
        next hvalue =>
          constructor
          · rintro ⟨⟩
            exact ⟨close, _, ⟨hopens, rfl, rfl, hvalue⟩, rfl⟩
          · rintro ⟨_, _, ⟨-, ⟨⟩, rfl, -⟩, rfl⟩
            rfl
        next hvalue =>
          refine iff_of_false nofun ?_
          rintro ⟨_, _, ⟨-, ⟨⟩, rfl, h⟩, -⟩
          exact hvalue h
    · rw [if_neg hopens]
      refine iff_of_false nofun ?_
      rintro ⟨close, sign, ⟨h, -⟩, -⟩
      exact hopens h
  lt := by
    rintro first _ ⟨close, sign, hassignment, rfl⟩
    have hle := le_runEnd (.except ['\n']) text sign
    have hbehind := hassignment.le
    have hlt := hassignment.lt
    rw [lineEnd]
    omega
  isPlace := by
    rintro first _ ⟨close, sign, hassignment, -⟩
    have hlength := (List.getElem?_eq_some_iff.mp hassignment.closes).1
    have hbehind := hassignment.le
    omega

/-! ### Counting assignments -/

theorem mem_assignments_iff : first ∈ assignments text ↔ ∃ stop, Pollutes text first stop := by
  rw [assignments, Finset.mem_filter, Finset.mem_range]
  constructor
  · rintro ⟨-, close, -, sign, -, hassignment⟩
    exact ⟨_, close, sign, hassignment, rfl⟩
  · rintro ⟨_, close, sign, hassignment, -⟩
    have hclose := (List.getElem?_eq_some_iff.mp hassignment.closes).1
    have hsign := (List.getElem?_eq_some_iff.mp hassignment.equals).1
    have hbehind := hassignment.le
    exact ⟨by omega, close, hclose, sign, hsign, hassignment⟩

theorem count_eq_zero_iff (content : String) :
    memoryPollution.count content = 0 ↔ assignments content.toList = ∅ := by
  have hfound := (endsBy_memoryPollution content.toList).matchesIn_eq_iff.mp
    (Eq.refl (memoryPollution.pattern.matchesIn content))
  rw [count, find, Pattern.find, List.length_map, List.length_eq_zero_iff,
    Finset.eq_empty_iff_forall_notMem]
  constructor
  · intro hnil first hfirst
    obtain ⟨stop, hends⟩ := mem_assignments_iff.mp hfirst
    exact hfound.ne_nil_iff.mpr ⟨first, Nat.zero_le first, stop, hends⟩ hnil
  · intro hnone
    by_contra hne
    obtain ⟨first, -, hends⟩ := hfound.ne_nil_iff.mp hne
    exact hnone first (mem_assignments_iff.mpr hends)

theorem fill_pollutionEvidence (count : Nat) (path : String) :
    Template.fill [("count", .number count), ("file", .text path)] memoryPollution.evidence =
      .ok ("Found " ++ toString count ++ " global assignments in " ++ path) := by
  have hfilled : Template.fillWithin [("count", .number count), ("file", .text path)]
      (memoryPollution.evidence.length + 1) memoryPollution.evidence.toList =
        .ok ("Found ".toList ++ ((toString (count : Int)).toList ++
          (" global assignments in ".toList ++ (path.toList ++ [])))) := rfl
  have hcount : toString (count : Int) = toString count := rfl
  rw [Template.fill, hfilled, hcount, Except.map, List.append_nil]
  simp only [String.ofList_append, String.ofList_toList, String.append_assoc]

/-- The finding for a number of assignments in a file. -/
def pollutionFinding (count : Nat) (path : String) : Node :=
  { kind := "MEMORY_POLLUTION"
    description := memoryPollution.description
    severity := .high
    evidence := some ("Found " ++ toString count ++ " global assignments in " ++ path)
    confidence := ⟨0.75, by decide, by decide⟩
    reasoning := some memoryPollution.reasoning
    mitigations := memoryPollution.mitigations }

theorem finding_memoryPollution (count : Nat) (path : String) :
    memoryPollution.finding count path = .ok (pollutionFinding count path) := by
  have hseverity : Severity.parse (.text memoryPollution.severity.label) = .ok .high := by decide
  have hconfidence : Confidence.ofValue memoryPollution.confidence =
      .ok ⟨0.75, by decide, by decide⟩ := by
    have hfloat : memoryPollution.confidence = .float 0.75 := rfl
    rw [hfloat]
    exact Confidence.ofFloat_value ⟨0.75, by decide, by decide⟩
  unfold finding
  simp only [fill_pollutionEvidence, Draft.node, hseverity, hconfidence]
  rfl

/-- What the analyzer does with the count: without a match nothing, and else it attaches one
finding. -/
theorem analyze_dataFlow (file : SourceFile) (branches : Branches) :
    Analyzer.dataFlow.analyze file branches =
    if memoryPollution.count file.content = 0 then pure []
    else do
      let finding ← Analysis.attach (branches.get .dataFlow)
        (pollutionFinding (memoryPollution.count file.content) file.path)
      return [finding] := by
  have hchecks : Analyzer.dataFlow.analyze file branches =
      Check.runAll file (branches.get .dataFlow) [{ signature := .memoryPollution }] := rfl
  rw [hchecks, Check.runAll, Check.runAll, Check.run]
  dsimp only
  split
  · simp
  · rw [finding_memoryPollution]
    simp [FollowUp.apply]

/-- The analyzer makes no finding if there is no assignment, and else one that gives the number of
matches. Each match begins with the first assignment at or after the end of the match before, and
takes the rest of the line of its sign. So the number is at most that of the assignments, and is the
number of the assignments exactly if none begins before the line ends on which another one has its
sign. -/
theorem memoryPollution_counts (path content : String) (branches : Branches) :
    FoundFrom (Pollutes content.toList) content.toList 0
      (memoryPollution.pattern.matchesIn content) ∧
      memoryPollution.count content ≤ (assignments content.toList).card ∧
      (memoryPollution.count content = (assignments content.toList).card ↔
        ∀ first close sign, Assignment content.toList first close sign →
          ∀ other ∈ assignments content.toList, first < other →
          lineEnd content.toList sign ≤ other) ∧
      Analyzer.dataFlow.analyze (.ofContent path content) branches =
        if assignments content.toList = ∅ then pure []
        else do
          let finding ← Analysis.attach (branches.get .dataFlow)
            (pollutionFinding (memoryPollution.count content) path)
          return [finding] := by
  have hendsBy := endsBy_memoryPollution content.toList
  have hfound := hendsBy.matchesIn_eq_iff.mp (Eq.refl (memoryPollution.pattern.matchesIn content))
  have hlt : ∀ first stop, Pollutes content.toList first stop → first < stop :=
    fun _ _ => hendsBy.lt
  have hstarts : ∀ first, first ∈ assignments content.toList ↔
      0 ≤ first ∧ ∃ stop, Pollutes content.toList first stop := by
    simp [mem_assignments_iff]
  have hcount : memoryPollution.count content =
      (memoryPollution.pattern.matchesIn content).length :=
    List.length_map _
  refine ⟨hfound, ?_, ?_, ?_⟩
  · rw [hcount]
    exact hfound.length_le_card hlt hstarts
  · rw [hcount, hfound.length_eq_card_iff hlt hendsBy.unique hstarts]
    constructor
    · intro hapart first close sign hassignment
      have hends : Pollutes content.toList first (lineEnd content.toList sign) :=
        ⟨close, sign, hassignment, rfl⟩
      exact hapart first (mem_assignments_iff.mpr ⟨_, hends⟩) _ hends
    · rintro hapart first - _ ⟨close, sign, hassignment, rfl⟩
      exact hapart first close sign hassignment
  · rw [analyze_dataFlow]
    simp only [SourceFile.ofContent, count_eq_zero_iff]

def twoOnALine : String := "window[a] = 1; window[b] = 2"

/-- Of two assignments on a line the finding counts one. -/
theorem memoryPollution_counts_of_twoOnALine :
    memoryPollution.count twoOnALine = 1 ∧ 1 < (assignments twoOnALine.toList).card ∧
      ∀ branches, Analyzer.dataFlow.analyze (.ofContent "src/a.js" twoOnALine) branches = do
        let finding ← Analysis.attach (branches.get .dataFlow) (pollutionFinding 1 "src/a.js")
        return [finding] := by
  have hcount : memoryPollution.count twoOnALine = 1 := by decide +kernel
  have hfirst : Assignment twoOnALine.toList 0 8 10 := by
    rw [assignment_iff, nullFrom_iff]
    decide +kernel
  have hsecond : Assignment twoOnALine.toList 15 23 25 := by
    rw [assignment_iff, nullFrom_iff]
    decide +kernel
  refine ⟨hcount, ?_, fun branches => ?_⟩
  · rw [Finset.one_lt_card]
    exact ⟨0, mem_assignments_iff.mpr ⟨_, 8, 10, hfirst, rfl⟩, 15,
      mem_assignments_iff.mpr ⟨_, 23, 25, hsecond, rfl⟩,
      by decide⟩
  · rw [analyze_dataFlow, SourceFile.ofContent, hcount]
    rfl

end RiskScan.Signature

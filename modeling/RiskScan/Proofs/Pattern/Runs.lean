import RiskScan.Proofs.Pattern.Scanning
/-!
# Runs of a class

A run without a limit goes to the end of a stretch of characters of its class, and from there back
to where it began. Where what has to follow cannot begin with a character of the class, only the end
of the stretch is left.
-/

namespace RiskScan.Pattern

open Cursor

variable {cls : CharClass} {text : List Char} {start stop place : Nat} {c : Char}

/-- The place after the characters of a class that follow a place. -/
def runEnd (cls : CharClass) (text : List Char) (start : Nat) : Nat :=
  start + ((text.drop start).takeWhile cls.holds).length

/-- From the end of a stretch of characters of a class, back over one character at a time. -/
theorem run_induction {motive : Nat → Prop} (cls : CharClass) (text : List Char)
    (ends : ∀ start, (∀ c, text[start]? = some c → cls.holds c = false) → motive start)
    (goesOn : ∀ start c, text[start]? = some c → cls.holds c = true → motive (start + 1) →
      motive start)
    (start : Nat) : motive start := by
  induction hremaining : text.length - start using Nat.strongRecOn generalizing start with
  | ind remaining ih =>
    cases hget : text[start]? with
    | none => exact ends start fun c hc => nomatch hget.symm.trans hc
    | some c =>
      cases hholds : cls.holds c with
      | false =>
        refine ends start fun d hd => ?_
        obtain rfl := Option.some.inj (hget.symm.trans hd)
        exact hholds
      | true =>
        have hlt : start < text.length := (List.getElem?_eq_some_iff.mp hget).1
        exact goesOn start c hget hholds (ih (text.length - (start + 1)) (by omega) (start + 1) rfl)

theorem runEnd_of_ends (hends : ∀ c, text[start]? = some c → cls.holds c = false) :
    runEnd cls text start = start := by
  rw [runEnd]
  cases hget : text[start]? with
  | none =>
    rw [List.drop_eq_nil_of_le (List.getElem?_eq_none_iff.mp hget)]
    rfl
  | some c =>
    rw [drop_eq_cons hget, List.takeWhile_cons_of_neg (by simp [hends c hget]), List.length_nil,
      Nat.add_zero]

theorem runEnd_of_holds (hget : text[start]? = some c) (hholds : cls.holds c = true) :
    runEnd cls text start = runEnd cls text (start + 1) := by
  rw [runEnd, runEnd, drop_eq_cons hget, List.takeWhile_cons_of_pos hholds, List.length_cons]
  omega

theorem le_runEnd (cls : CharClass) (text : List Char) (start : Nat) :
    start ≤ runEnd cls text start :=
  Nat.le_add_right _ _

theorem not_holds_runEnd (h : text[runEnd cls text start]? = some c) : cls.holds c = false := by
  induction start using run_induction cls text with
  | ends start hends =>
    rw [runEnd_of_ends hends] at h
    exact hends c h
  | goesOn start d hget hholds ih =>
    rw [runEnd_of_holds hget hholds] at h
    exact ih h

theorem exists_of_lt_runEnd (hle : start ≤ place) (hlt : place < runEnd cls text start) :
    ∃ c, text[place]? = some c ∧ cls.holds c = true := by
  induction start using run_induction cls text with
  | ends start hends =>
    rw [runEnd_of_ends hends] at hlt
    exact absurd hle (Nat.not_le_of_lt hlt)
  | goesOn start d hget hholds ih =>
    rw [runEnd_of_holds hget hholds] at hlt
    rcases Nat.eq_or_lt_of_le hle with rfl | hlater
    · exact ⟨d, hget, hholds⟩
    · exact ih hlater hlt

/-- A stretch of characters of a class that another character, or nothing, follows is what a run
takes. -/
theorem runEnd_eq_of_between (hle : start ≤ stop)
    (hbetween : ∀ place, start ≤ place → place < stop → ∃ c, text[place]? = some c ∧
      cls.holds c = true)
    (hends : ∀ c, text[stop]? = some c → cls.holds c = false) : runEnd cls text start = stop := by
  rcases Nat.lt_trichotomy (runEnd cls text start) stop with hlt | heq | hgt
  · obtain ⟨c, hget, hholds⟩ := hbetween _ (le_runEnd cls text start) hlt
    exact nomatch hholds.symm.trans (not_holds_runEnd hget)
  · exact heq
  · obtain ⟨c, hget, hholds⟩ := exists_of_lt_runEnd hle hgt
    exact nomatch hholds.symm.trans (hends c hget)

/-! ### Stops of a run -/

theorem reach_nil (cls : CharClass) (position : Nat) (stops : List Cursor) :
    reach cls none position [] stops = stops := by
  rw [reach]
  exact nofun

theorem reach_cons (cls : CharClass) (position : Nat) (c : Char) (rest : List Char)
    (stops : List Cursor) :
    reach cls none position (c :: rest) stops =
      if cls.holds c then reach cls none (position + 1) rest (⟨position + 1, some c, rest⟩ :: stops)
      else stops := by
  rw [reach]
  · rfl
  · exact nofun

/-- A run without limit keeps what is reached before it. -/
theorem reach_append (cls : CharClass) (position : Nat) (rest : List Char)
    (stops others : List Cursor) :
    reach cls none position rest (stops ++ others) = reach cls none position rest stops ++
      others := by
  induction rest generalizing position stops with
  | nil => rw [reach_nil, reach_nil]
  | cons c rest ih =>
    rw [reach_cons, reach_cons]
    split
    · exact ih (position + 1) (⟨position + 1, some c, rest⟩ :: stops)
    · rfl

theorem stops_run (cls : CharClass) (cursor : Cursor) :
    (run cls 0 none).stops cursor = reach cls none cursor.position cursor.rest [cursor] := by
  rw [stops, runStops, Nat.sub_zero, List.take_length]

theorem stops_run_of_ends (hends : ∀ c, text[start]? = some c → cls.holds c = false) :
    (run cls 0 none).stops (inText text start) = [inText text start] := by
  rw [stops_run, inText]
  cases hget : text[start]? with
  | none => rw [List.drop_eq_nil_of_le (List.getElem?_eq_none_iff.mp hget), reach_nil]
  | some c => rw [drop_eq_cons hget, reach_cons, if_neg (by simp [hends c hget])]

/-- What a run reaches from the next place is tried before this place. -/
theorem stops_run_of_holds (hget : text[start]? = some c) (hholds : cls.holds c = true) :
    (run cls 0 none).stops (inText text start) =
      (run cls 0 none).stops (inText text (start + 1)) ++ [inText text start] := by
  have hsplit : ∀ here next : Cursor, [next, here] = [next] ++ [here] := fun _ _ => rfl
  rw [stops_run, stops_run, inText_succ hget, inText, drop_eq_cons hget, reach_cons, if_pos hholds,
    hsplit, reach_append]

theorem head?_stops_run (cls : CharClass) (text : List Char) (start : Nat) :
    ((run cls 0 none).stops (inText text start)).head? =
      some (inText text (runEnd cls text start)) := by
  induction start using run_induction cls text with
  | ends start hends => rw [stops_run_of_ends hends, runEnd_of_ends hends, List.head?_cons]
  | goesOn start c hget hholds ih =>
    rw [stops_run_of_holds hget hholds, runEnd_of_holds hget hholds, List.head?_append, ih,
      Option.some_or]

/-- A run stops at all places as far as it reaches. -/
theorem mem_stops_run {cursor : Cursor} : cursor ∈ (run cls 0 none).stops (inText text start) ↔
    ∃ place, start ≤ place ∧ place ≤ runEnd cls text start ∧ cursor = inText text place := by
  induction start using run_induction cls text with
  | ends start hends =>
    rw [stops_run_of_ends hends, runEnd_of_ends hends, List.mem_singleton]
    constructor
    · exact fun hhere => ⟨start, Nat.le_refl _, Nat.le_refl _, hhere⟩
    · rintro ⟨place, hle, hge, rfl⟩
      rw [Nat.le_antisymm hge hle]
  | goesOn start c hget hholds ih =>
    rw [stops_run_of_holds hget hholds, runEnd_of_holds hget hholds, List.mem_append, ih,
      List.mem_singleton]
    constructor
    · rintro (⟨place, hle, hend, rfl⟩ | rfl)
      · exact ⟨place, Nat.le_of_succ_le hle, hend, rfl⟩
      · exact ⟨start, Nat.le_refl _, Nat.le_of_succ_le (le_runEnd cls text (start + 1)), rfl⟩
    · rintro ⟨place, hle, hend, rfl⟩
      rcases Nat.eq_or_lt_of_le hle with rfl | hlater
      · exact Or.inr rfl
      · exact Or.inl ⟨place, hlater, hend, rfl⟩

/-- What cannot begin with a character of the class follows a run at its end only. -/
theorem flatMap_stops_run {next : Cursor → List Cursor}
    (hnext : ∀ place c, text[place]? = some c → cls.holds c = true →
      next (inText text place) = []) :
    ((run cls 0 none).stops (inText text start)).flatMap next =
      next (inText text (runEnd cls text start)) := by
  induction start using run_induction cls text with
  | ends start hends => rw [stops_run_of_ends hends, runEnd_of_ends hends, List.flatMap_singleton]
  | goesOn start c hget hholds ih =>
    rw [stops_run_of_holds hget hholds, runEnd_of_holds hget hholds, List.flatMap_append, ih,
      List.flatMap_singleton, hnext start c hget hholds, List.append_nil]

/-! ### A single character -/

theorem stops_one_of_holds (hget : text[start]? = some c) (hholds : cls.holds c = true) :
    (one cls).stops (inText text start) = [inText text (start + 1)] := by
  rw [inText_succ hget, inText, drop_eq_cons hget, stops, if_pos hholds]

theorem stops_one_of_not_holds (hnot : ∀ c, text[start]? = some c → cls.holds c = false) :
    (one cls).stops (inText text start) = [] := by
  rw [inText]
  cases hget : text[start]? with
  | none => rw [List.drop_eq_nil_of_le (List.getElem?_eq_none_iff.mp hget), stops]
  | some c => rw [drop_eq_cons hget, stops, if_neg (by simp [hnot c hget])]

theorem stops_text_singleton (hget : text[start]? = some c) :
    (Pattern.text [c]).stops (inText text start) = [inText text (start + 1)] := by
  have hstarts : [c] <+: text.drop start := by
    rw [drop_eq_cons hget]
    exact ⟨_, rfl⟩
  rw [stops, skip?_inText hstarts]
  rfl

theorem stops_text_of_ne {chars : List Char} (hget : text[start]? ≠ some c) :
    (Pattern.text (c :: chars)).stops (inText text start) = [] := by
  have hstarts : ¬ (c :: chars) <+: text.drop start := by
    rintro ⟨rest, hrest⟩
    refine hget ?_
    rw [← List.head?_drop, ← hrest]
    rfl
  rw [stops, skip?_inText_of_not_isPrefix hstarts, Option.toList_none]

end RiskScan.Pattern

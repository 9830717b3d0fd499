import RiskScan.Proofs.Pattern.Stops
/-!
# Scanning a text

The matches of a pattern are told by where a match from each place of the text ends, if there is
one: the first place from which there is one, at or after the end of the match before, and so on.
What a pattern does at a place does not depend on how the search has come there, because every stop
of a pattern is a place of the same text.
-/

namespace RiskScan

namespace Cursor

/-- A place in a text, by the number of characters before it. -/
def inText (text : List Char) (position : Nat) : Cursor :=
  ⟨position, (text.take position).getLast?, text.drop position⟩

variable {text passed : List Char} {position : Nat} {c : Char} {stop : Cursor}

theorem drop_eq_cons (h : text[position]? = some c) :
    text.drop position = c :: text.drop (position + 1) := by
  obtain ⟨hlt, hget⟩ := List.getElem?_eq_some_iff.mp h
  rw [List.drop_eq_getElem_cons hlt, hget]

theorem inText_succ (h : text[position]? = some c) :
    inText text (position + 1) = ⟨position + 1, some c, text.drop (position + 1)⟩ := by
  rw [inText, List.take_add_one, h, Option.toList_some, List.getLast?_concat]

theorem skip?_inText {chars : List Char} (h : chars <+: text.drop position) :
    (inText text position).skip? chars = some (inText text (position + chars.length)) := by
  obtain ⟨rest, hrest⟩ := h
  rw [skip?_eq_some_iff]
  refine ⟨?_, rfl, ?_⟩
  · dsimp only [inText]
    rw [← List.drop_drop, ← hrest, List.drop_left]
  · dsimp only [inText]
    rw [List.take_add, ← hrest, List.take_left, List.getLast?_append]

theorem skip?_inText_of_not_isPrefix {chars : List Char} (h : ¬ chars <+: text.drop position) :
    (inText text position).skip? chars = none := by
  rw [Option.eq_none_iff_forall_ne_some]
  intro stop hstop
  exact h ⟨stop.rest, (skip?_eq_some_iff.mp hstop).1.symm⟩

/-- Whatever lies ahead of a place of a text is a place of this text. -/
theorem Ahead.eq_inText (h : Ahead (inText text position) passed stop)
    (hposition : position ≤ text.length) :
    stop = inText text stop.position ∧ position ≤ stop.position ∧ stop.position ≤ text.length := by
  obtain ⟨hrest, hend, hbefore⟩ := h
  obtain ⟨stopPosition, stopBefore, stopRest⟩ := stop
  dsimp only [inText] at hrest hend hbefore
  subst hend hbefore
  have hlength := congrArg List.length hrest
  rw [List.length_drop, List.length_append] at hlength
  refine ⟨?_, Nat.le_add_right position passed.length, ?_⟩
  · rw [inText, List.take_add, ← List.drop_drop, hrest, List.take_left, List.drop_left,
      List.getLast?_append]
  · dsimp only
    omega

end Cursor

namespace Pattern

open Cursor

variable {text : List Char} {cursor stop : Cursor}

/-- A match from a place of a text ends at a place of this text. -/
theorem inText_of_matchEnd? {pattern : Pattern} {position : Nat}
    (hposition : position ≤ text.length)
    (h : pattern.matchEnd? (inText text position) = some stop) :
    stop = inText text stop.position ∧ position ≤ stop.position ∧ stop.position ≤ text.length := by
  obtain ⟨passed, hahead, -⟩ := taken_of_matchEnd? h
  exact hahead.eq_inText hposition

/-! ### One match after the other -/

/-- The matches from a place of a text on, if `Ends first stop` says that a match from `first` ends
at `stop`: each begins at the first possible place, and the next one is looked for behind it. -/
inductive FoundFrom (Ends : Nat → Nat → Prop) (text : List Char) : Nat → List Match → Prop where
  | done {start : Nat} (none : ∀ first ≥ start, ∀ stop, ¬ Ends first stop) :
      FoundFrom Ends text start []
  | next {start first stop : Nat} {found : List Match} (after : start ≤ first)
    (ends : Ends first stop)
    (earliest : ∀ other, start ≤ other → other < first → ∀ stop, ¬ Ends other stop)
    (rest : FoundFrom Ends text stop found) :
      FoundFrom Ends text start (⟨first, (text.drop first).take (stop - first)⟩ :: found)

variable {Ends : Nat → Nat → Prop} {start : Nat} {found : List Match}

/-- A place from which there is no match can be left out. -/
theorem FoundFrom.of_succ (hnone : ∀ stop, ¬ Ends start stop)
    (h : FoundFrom Ends text (start + 1) found) :
    FoundFrom Ends text start found := by
  have hbefore : ∀ other, start ≤ other → ¬ start + 1 ≤ other → ∀ stop, ¬ Ends other stop := by
    intro other hle hnot
    have hsame : other = start := by omega
    rwa [hsame]
  cases h with
  | done hlater =>
    refine .done fun first hfirst => ?_
    by_cases hle : start + 1 ≤ first
    · exact hlater first hle
    · exact hbefore first hfirst hle
  | next hafter hends hearliest hrest =>
    refine .next (Nat.le_of_succ_le hafter) hends ?_ hrest
    intro other hother hlt
    by_cases hle : start + 1 ≤ other
    · exact hearliest other hle hlt
    · exact hbefore other hother hle

/-- There is only one list of matches. -/
theorem FoundFrom.unique (hunique : ∀ first stop other, Ends first stop → Ends first other →
    stop = other)
    {left right : List Match} (hleft : FoundFrom Ends text start left)
    (hright : FoundFrom Ends text start right) : left = right := by
  induction hleft generalizing right with
  | done hnone =>
    cases hright with
    | done _ => rfl
    | next hafter hends _ _ => exact absurd hends (hnone _ hafter _)
  | next hafter hends hearliest _ ih =>
    cases hright with
    | done hnone => exact absurd hends (hnone _ hafter _)
    | @next _ first stop found hafterRight hendsRight hearliestRight hrest =>
      rename_i firstLeft _ _ _
      rcases Nat.lt_trichotomy firstLeft first with hlt | heq | hgt
      · exact absurd hends (hearliestRight firstLeft hafter hlt _)
      · subst heq
        cases hunique _ _ _ hends hendsRight
        rw [ih hrest]
      · exact absurd hendsRight (hearliest first hafterRight hgt _)

theorem FoundFrom.ne_nil_iff (h : FoundFrom Ends text start found) :
    found ≠ [] ↔ ∃ first ≥ start, ∃ stop, Ends first stop := by
  cases h with
  | done hnone =>
    refine iff_of_false (fun hne => hne rfl) ?_
    rintro ⟨first, hfirst, stop, hends⟩
    exact hnone first hfirst stop hends
  | next hafter hends _ _ => exact iff_of_true (List.cons_ne_nil _ _) ⟨_, hafter, _, hends⟩

/-- The matches from a place of a text on. -/
def findIn (pattern : Pattern) (text : List Char) (start : Nat) : List Match :=
  pattern.findFrom start (text.take start).getLast? (text.drop start)

section

variable {pattern : Pattern} {c : Char}

theorem findIn_of_length_le (hlast : text.length ≤ start)
    (hnone : pattern.matchEnd? (inText text start) = none) : pattern.findIn text start = [] := by
  have hrest : text.drop start = [] := List.drop_eq_nil_of_le hlast
  rw [inText, hrest] at hnone
  rw [findIn, hrest, findFrom, hnone, Option.isSome_none, if_neg Bool.false_ne_true]

theorem findIn_of_none (hget : text[start]? = some c)
    (hnone : pattern.matchEnd? (inText text start) = none) :
    pattern.findIn text start = pattern.findIn text (start + 1) := by
  rw [inText, drop_eq_cons hget] at hnone
  rw [findIn, drop_eq_cons hget, findFrom_cons_of_none hnone, findIn, List.take_add_one, hget,
    Option.toList_some, List.getLast?_concat]

theorem findIn_of_some (hget : text[start]? = some c)
    (hstop : pattern.matchEnd? (inText text start) = some stop) (hlt : start < stop.position) :
    pattern.findIn text start =
      ⟨start, (text.drop start).take (stop.position - start)⟩ :: pattern.findIn text
        stop.position := by
  have hstart : start ≤ text.length := Nat.le_of_lt (List.getElem?_eq_some_iff.mp hget).1
  have hbefore : stop.before = (text.take stop.position).getLast? :=
    congrArg Cursor.before (inText_of_matchEnd? hstart hstop).1
  have hdrop : (text.drop start).drop (stop.position - start) = text.drop stop.position := by
    rw [List.drop_drop, Nat.add_sub_cancel' (Nat.le_of_lt hlt)]
  rw [drop_eq_cons hget] at hdrop
  rw [inText, drop_eq_cons hget] at hstop
  rw [findIn, drop_eq_cons hget, findFrom_cons_of_some hstop (Nat.sub_ne_zero_of_lt hlt), hdrop,
    hbefore, findIn]

end

/-- From every place of a text, a match of the pattern ends where `Ends` says, and holds some
character. -/
structure EndsBy (pattern : Pattern) (text : List Char) (Ends : Nat → Nat → Prop) : Prop where
  stop_iff {first : Nat} (isPlace : first ≤ text.length) (stop : Nat) :
    (pattern.matchEnd? (inText text first)).map Cursor.position = some stop ↔ Ends first stop
  lt {first stop : Nat} : Ends first stop → first < stop
  isPlace {first stop : Nat} : Ends first stop → first ≤ text.length

namespace EndsBy

variable {pattern : Pattern}

theorem eq_none (h : EndsBy pattern text Ends) (hstart : start ≤ text.length)
    (hnone : pattern.matchEnd? (inText text start) = none) (stop : Nat) : ¬ Ends start stop := by
  intro hends
  have hstop := (h.stop_iff hstart stop).mpr hends
  rw [hnone, Option.map_none] at hstop
  cases hstop

theorem foundFrom (h : EndsBy pattern text Ends) (hstart : start ≤ text.length) :
    FoundFrom Ends text start (pattern.findIn text start) := by
  induction hmeasure : text.length - start using Nat.strongRecOn generalizing start with
  | ind remaining ih =>
    cases hget : text[start]? with
    | none =>
      have hlast := List.getElem?_eq_none_iff.mp hget
      have hnone : pattern.matchEnd? (inText text start) = none := by
        rw [Option.eq_none_iff_forall_ne_some]
        intro stop hsome
        have hends :=
          (h.stop_iff hstart stop.position).mp (congrArg (Option.map Cursor.position) hsome)
        obtain ⟨-, -, hle⟩ := inText_of_matchEnd? hstart hsome
        have hlt := h.lt hends
        omega
      rw [findIn_of_length_le hlast hnone]
      refine .done fun first hfirst stop hends => ?_
      have hplace := h.isPlace hends
      have hsame : first = start := by omega
      rw [hsame] at hends
      exact h.eq_none hstart hnone stop hends
    | some c =>
      have hlt : start < text.length := (List.getElem?_eq_some_iff.mp hget).1
      cases hmatch : pattern.matchEnd? (inText text start) with
      | none =>
        rw [findIn_of_none hget hmatch]
        exact (ih _ (by omega) hlt rfl).of_succ (h.eq_none hstart hmatch)
      | some stop =>
        have hends :=
          (h.stop_iff hstart stop.position).mp (congrArg (Option.map Cursor.position) hmatch)
        obtain ⟨-, -, hle⟩ := inText_of_matchEnd? hstart hmatch
        have hlater := h.lt hends
        rw [findIn_of_some hget hmatch hlater]
        exact .next (Nat.le_refl start) hends (fun other hother hbefore => by omega)
          (ih _ (by omega) hle rfl)

/-- A match from a place ends at one place only. -/
theorem unique (h : EndsBy pattern text Ends) (first stop other : Nat) (hstop : Ends first stop)
    (hother : Ends first other) : stop = other := by
  have hplace := h.isPlace hstop
  rw [← h.stop_iff hplace] at hstop hother
  rw [hstop] at hother
  exact Option.some.inj hother

/-- The matches in a text are found one after the other. -/
theorem matchesIn_eq_iff {content : String} (h : EndsBy pattern content.toList Ends) :
    pattern.matchesIn content = found ↔ FoundFrom Ends content.toList 0 found := by
  have hfoundFrom : FoundFrom Ends content.toList 0 (pattern.matchesIn content) :=
    h.foundFrom (Nat.zero_le _)
  constructor
  · rintro rfl
    exact hfoundFrom
  · exact fun hfound => hfoundFrom.unique h.unique hfound

end EndsBy

end Pattern

end RiskScan

import Mathlib.Data.List.Forall2
import RiskScan.Proofs.Pattern.Counting
/-!
# Tokens of a text

A token is what a pattern matches at a place of a text. Where a pattern takes at least one
character, a search goes on behind every match, so that the matches are tokens at places of which
each lies behind the one before.
-/

namespace RiskScan.Pattern

open Cursor

variable {pattern : Pattern} {patterns : List Pattern} {text taken : List Char}
    {content token : String} {start : Nat}

/-! ### What a pattern takes -/

theorem takes_all_cons (h : (all (pattern :: patterns)).Takes taken) :
    ∃ front back, pattern.Takes front ∧ (all patterns).Takes back ∧ taken = front ++ back := by
  cases patterns with
  | nil => exact ⟨taken, [], h, rfl, (List.append_nil taken).symm⟩
  | cons next patterns => exact h

theorem takes_all_concat (h : (all (patterns ++ [pattern])).Takes taken) :
    ∃ front back, (all patterns).Takes front ∧ pattern.Takes back ∧ taken = front ++ back := by
  induction patterns generalizing taken with
  | nil => exact ⟨[], taken, rfl, h, rfl⟩
  | cons next patterns ih =>
    obtain ⟨here, later, hnext, hlater, rfl⟩ := takes_all_cons h
    obtain ⟨front, back, hfront, hback, rfl⟩ := ih hlater
    refine ⟨here ++ front, back, ?_, hback, (List.append_assoc here front back).symm⟩
    cases patterns with
    | nil =>
      cases hfront
      rwa [List.append_nil]
    | cons other patterns => exact ⟨here, front, hnext, hfront, rfl⟩

/-- How many characters a pattern takes at least, runs and rounds left out. -/
def least : Pattern → Nat
  | .one _ => 1
  | .text chars => chars.length
  | .seq first second => first.least + second.least
  | .either first second => min first.least second.least
  | .run .. | .lazyRun _ | .many _ | .lazyUpTo .. | .wordBoundary | .unless _ => 0

theorem Takes.least_le (h : pattern.Takes taken) : pattern.least ≤ taken.length := by
  induction pattern generalizing taken with
  | one cls =>
    obtain ⟨c, -, rfl⟩ := h
    exact Nat.le_refl 1
  | text chars =>
    obtain rfl : taken = chars := h
    exact Nat.le_refl taken.length
  | seq first second ihfirst ihsecond =>
    obtain ⟨front, back, hfront, hback, rfl⟩ := h
    rw [List.length_append]
    exact Nat.add_le_add (ihfirst hfront) (ihsecond hback)
  | either first second ihfirst ihsecond =>
    obtain hfirst | hsecond := h
    · exact Nat.le_trans (Nat.min_le_left _ _) (ihfirst hfirst)
    · exact Nat.le_trans (Nat.min_le_right _ _) (ihsecond hsecond)
  | run | lazyRun | many | lazyUpTo | wordBoundary | «unless» => exact Nat.zero_le taken.length

/-! ### Tokens -/

/-- What the pattern matches at this place of the text is the token. -/
structure TokenAt (pattern : Pattern) (text : List Char) (token : String) (start : Nat) : Prop where
  here : token.toList <+: text.drop start
  ends : (pattern.matchEnd? (inText text start)).map Cursor.position =
    some (start + token.toList.length)
  ne_nil : token.toList ≠ []

/-- The tokens are found at places of which each lies behind the one before. -/
def InOrder (FoundAt : String → Nat → Prop) (tokens : List String) : Prop :=
  ∃ starts : List Nat, starts.Pairwise (· < ·) ∧ List.Forall₂ FoundAt tokens starts

/-- The places at which the matches in a text begin. -/
def startsIn (pattern : Pattern) (content : String) : List Nat :=
  (pattern.matchesIn content).map Match.start

namespace TokenAt

theorem lt_length (h : pattern.TokenAt text token start) : start < text.length := by
  have hlength := h.here.length_le
  have hpos := List.length_pos_iff.mpr h.ne_nil
  rw [List.length_drop] at hlength
  omega

/-- There is one token at a place at most. -/
theorem unique {other : String} (h : pattern.TokenAt text token start)
    (hother : pattern.TokenAt text other start) :
    token = other := by
  have hends := Option.some.inj (h.ends.symm.trans hother.ends)
  have hlength : token.toList.length = other.toList.length := Nat.add_left_cancel hends
  exact String.toList_inj.mp
    (List.prefix_of_prefix_length_le h.here hother.here hlength.le |>.eq_of_length hlength)

theorem takes (h : pattern.TokenAt text token start) : pattern.Takes token.toList := by
  obtain ⟨stop, hstop, hposition⟩ := Option.map_eq_some_iff.mp h.ends
  obtain ⟨passed, hahead, htakes⟩ := taken_of_matchEnd? hstop
  have hlength : passed.length = token.toList.length :=
    Nat.add_left_cancel (hahead.position.symm.trans hposition)
  have hpassed : passed <+: text.drop start := ⟨stop.rest, hahead.rest.symm⟩
  rwa [← (List.prefix_of_prefix_length_le hpassed h.here hlength.le).eq_of_length hlength]

end TokenAt

/-! ### Matches are tokens -/

/-- A match from a place of the text ends at another. -/
def Spans (pattern : Pattern) (text : List Char) (start stop : Nat) : Prop :=
  (pattern.matchEnd? (inText text start)).map Cursor.position = some stop ∧ start ≤ text.length

theorem Spans.tokenAt {stop : Nat} (hleast : 0 < pattern.least)
    (h : pattern.Spans text start stop) :
    start < stop ∧ stop ≤ text.length ∧
      pattern.TokenAt text (String.ofList ((text.drop start).take (stop - start))) start := by
  obtain ⟨hends, hplace⟩ := h
  obtain ⟨last, hlast, rfl⟩ := Option.map_eq_some_iff.mp hends
  obtain ⟨-, hle, hinside⟩ := inText_of_matchEnd? hplace hlast
  obtain ⟨passed, hahead, htakes⟩ := taken_of_matchEnd? hlast
  have hposition : last.position = start + passed.length := hahead.position
  have hlt : start < last.position := by
    have hpassed := htakes.least_le
    omega
  have hlength : ((text.drop start).take (last.position - start)).length =
      last.position - start := by
    rw [List.length_take, List.length_drop]
    omega
  refine ⟨hlt, hinside, ?_, ?_, ?_⟩
  · rw [String.toList_ofList]
    exact List.take_prefix _ _
  · rw [String.toList_ofList, hlength, hends, Nat.add_sub_cancel' hle]
  · rw [String.toList_ofList, ← List.length_pos_iff, hlength]
    omega

theorem endsBy_spans (hleast : 0 < pattern.least) (text : List Char) :
    EndsBy pattern text (pattern.Spans text) where
  stop_iff hplace _ := ⟨fun hends => ⟨hends, hplace⟩, And.left⟩
  lt h := (h.tokenAt hleast).1
  isPlace h := h.2

theorem foundFrom_spans (hleast : 0 < pattern.least) (content : String) :
    FoundFrom (pattern.Spans content.toList) content.toList 0 (pattern.matchesIn content) :=
  (endsBy_spans hleast content.toList).matchesIn_eq_iff.mp rfl

theorem FoundFrom.text_eq {Ends : Nat → Nat → Prop} {founds : List Match} {found : Match}
    (h : FoundFrom Ends text start founds) (hmem : found ∈ founds) :
    ∃ stop, Ends found.start stop ∧
    found.text = (text.drop found.start).take (stop - found.start) := by
  induction h with
  | done _ => cases hmem
  | next _ hends _ _ ih =>
    rcases List.mem_cons.mp hmem with rfl | hmem
    · exact ⟨_, hends, rfl⟩
    · exact ih hmem

theorem tokenAt_of_mem (hleast : 0 < pattern.least) {found : Match}
    (hmem : found ∈ pattern.matchesIn content) :
    pattern.TokenAt content.toList (String.ofList found.text) found.start := by
  obtain ⟨stop, hspans, htext⟩ := (foundFrom_spans hleast content).text_eq hmem
  rw [htext]
  exact (hspans.tokenAt hleast).2.2

/-- What a pattern finds in a text are tokens, each behind the one before. -/
theorem find_inOrder (hleast : 0 < pattern.least) (content : String) :
    (pattern.startsIn content).Pairwise (· < ·) ∧
      List.Forall₂ (pattern.TokenAt content.toList) (pattern.find content)
        (pattern.startsIn content) := by
  refine ⟨(foundFrom_spans hleast content).pairwise_starts fun _ _ =>
    (endsBy_spans hleast _).lt, ?_⟩
  rw [find, startsIn, List.forall₂_map_left_iff, List.forall₂_map_right_iff, List.forall₂_same]
  exact fun _ => tokenAt_of_mem hleast

end RiskScan.Pattern

import RiskScan.Proofs.Pattern.Scanning
/-!
# Whole words

A word boundary in front of a word asks that no word character comes before it, and one behind the
word that none follows.
-/

namespace RiskScan.Pattern

open Cursor Text

/-- The one character is looked at, and not each that there is. -/
instance (found : Option Char) (holds : Char → Bool) (answer : Bool) :
    Decidable (∀ c ∈ found, holds c = answer) :=
  found.decidableForallMem

/-- A word stands here, with no word character next to it on either side. -/
structure WordAt (word text : List Char) (position : Nat) : Prop where
  here : word <+: text.drop position
  before : ∀ c ∈ (text.take position).getLast?, isWord c = false
  after : ∀ c ∈ text[position + word.length]?, isWord c = false

instance (word text : List Char) (position : Nat) : Decidable (WordAt word text position) :=
  decidable_of_iff (word <+: text.drop position ∧
    (∀ c ∈ (text.take position).getLast?, isWord c = false) ∧
      ∀ c ∈ text[position + word.length]?, isWord c = false)
    ⟨fun ⟨here, before, after⟩ => ⟨here, before, after⟩, fun ⟨here, before, after⟩ =>
      ⟨here, before, after⟩⟩

variable {word text : List Char} {position : Nat}

theorem WordAt.add_length_le (h : WordAt word text position) (hword : word ≠ []) :
    position + word.length ≤ text.length := by
  have hlength := h.here.length_le
  have hpos := List.length_pos_iff.mpr hword
  rw [List.length_drop] at hlength
  omega

theorem getD_isWord_eq_false_iff (found : Option Char) :
    (found.map isWord).getD false = false ↔ ∀ c ∈ found, isWord c = false := by
  cases found <;> simp

theorem atWordBoundary_before (hfirst : (word.head?.map isWord).getD false = true)
    (hhere : word <+: text.drop position) :
    (inText text position).atWordBoundary = true ↔
    ∀ c ∈ (text.take position).getLast?, isWord c = false := by
  have hhead : ((text.drop position).head?.map isWord).getD false = true := by
    obtain ⟨rest, hrest⟩ := hhere
    cases word with
    | nil => cases hfirst
    | cons c word =>
      rw [← hrest]
      exact hfirst
  rw [atWordBoundary, inText, hhead, ← getD_isWord_eq_false_iff, bne_iff_ne, ne_eq,
    Bool.not_eq_true]

theorem atWordBoundary_after (hlast : (word.getLast?.map isWord).getD false = true)
    (hhere : word <+: text.drop position) :
    (inText text (position + word.length)).atWordBoundary = true ↔
      ∀ c ∈ text[position + word.length]?, isWord c = false := by
  have htake : (((text.take (position + word.length)).getLast?).map isWord).getD false = true := by
    obtain ⟨rest, hrest⟩ := hhere
    rw [List.take_add, ← hrest, List.take_left, List.getLast?_append]
    cases hword : word.getLast? with
    | none =>
      rw [hword] at hlast
      cases hlast
    | some c =>
      rw [hword] at hlast
      exact hlast
  rw [atWordBoundary, inText, htake, List.head?_drop, ← getD_isWord_eq_false_iff, bne_iff_ne,
    ne_comm, ne_eq, Bool.not_eq_true]

/-- A word and the boundary behind it. -/
theorem stops_text_boundary (hlast : (word.getLast?.map isWord).getD false = true)
    (text : List Char) (position : Nat) :
    (Pattern.seq (.text word) .wordBoundary).stops (inText text position) =
      if word <+: text.drop position ∧ ∀ c ∈ text[position + word.length]?, isWord c = false then
        [inText text (position + word.length)]
      else [] := by
  by_cases hhere : word <+: text.drop position
  · rw [stops, stops, skip?_inText hhere, Option.toList_some, List.flatMap_singleton, stops]
    simp only [hhere, true_and, atWordBoundary_after hlast hhere]
  · rw [stops, stops, skip?_inText_of_not_isPrefix hhere, if_neg fun h => hhere h.1]
    rfl

/-- A word between two boundaries. -/
theorem stops_word (hfirst : (word.head?.map isWord).getD false = true)
    (hlast : (word.getLast?.map isWord).getD false = true) (text : List Char) (position : Nat) :
    (Pattern.seq .wordBoundary (.seq (.text word) .wordBoundary)).stops (inText text position) =
      if WordAt word text position then [inText text (position + word.length)] else [] := by
  have hsplit :
      (Pattern.seq .wordBoundary (.seq (.text word) .wordBoundary)).stops (inText text position) =
      if (inText text position).atWordBoundary = true then
        (Pattern.seq (.text word) .wordBoundary).stops (inText text position) else [] := by
    have hboundary : Pattern.wordBoundary.stops (inText text position) =
        if (inText text position).atWordBoundary = true then [inText text position] else [] := by
      rw [stops]
    rw [stops, hboundary]
    split
    · rw [List.flatMap_singleton]
    · rfl
  rw [hsplit, stops_text_boundary hlast]
  by_cases hword : WordAt word text position
  · rw [if_pos ((atWordBoundary_before hfirst hword.here).mpr hword.before),
      if_pos ⟨hword.here, hword.after⟩, if_pos hword]
  · rw [if_neg hword]
    split
    next hbefore =>
      refine if_neg fun hhere => hword ⟨hhere.1, ?_, hhere.2⟩
      exact (atWordBoundary_before hfirst hhere.1).mp hbefore
    next => rfl

end RiskScan.Pattern

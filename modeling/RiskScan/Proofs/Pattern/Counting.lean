import Mathlib.Data.Finset.Card
import RiskScan.Proofs.Pattern.Scanning
/-!
# Counting matches

Not every place where a match could begin gives a match of its own: a search goes on behind the
match before. So there are at most as many matches as such places, and as many exactly if none of
these places lies inside the match from another.
-/

namespace RiskScan.Pattern

variable {Ends : Nat → Nat → Prop} {text : List Char} {start first stop : Nat} {found : List Match}

namespace FoundFrom

theorem of_mem (h : FoundFrom Ends text start found)
    (hlt : ∀ first stop, Ends first stop → first < stop) (hmem : first ∈ found.map Match.start) :
    start ≤ first ∧ ∃ stop, Ends first stop := by
  induction h with
  | done _ => cases hmem
  | next hafter hends _ _ ih =>
    rcases List.mem_cons.mp hmem with rfl | hmem
    · exact ⟨hafter, _, hends⟩
    · obtain ⟨hle, hends'⟩ := ih hmem
      exact ⟨Nat.le_trans hafter (Nat.le_of_lt (Nat.lt_of_lt_of_le (hlt _ _ hends) hle)), hends'⟩

/-- A match ends before a later one begins. -/
theorem stop_le (h : FoundFrom Ends text start found)
    (hlt : ∀ first stop, Ends first stop → first < stop)
    (hunique : ∀ first stop other, Ends first stop → Ends first other → stop = other) {later : Nat}
    (hfirst : first ∈ found.map Match.start) (hlater : later ∈ found.map Match.start)
    (hbehind : first < later) (hends : Ends first stop) : stop ≤ later := by
  induction h with
  | done _ => cases hfirst
  | @next _ earliest earliestStop _ _ hearliest _ hrest ih =>
    rcases List.mem_cons.mp hfirst with rfl | hrestFirst
    · rcases List.mem_cons.mp hlater with rfl | hrestLater
      · exact absurd hbehind (Nat.lt_irrefl _)
      · rw [hunique _ _ _ hends hearliest]
        exact (hrest.of_mem hlt hrestLater).1
    · rcases List.mem_cons.mp hlater with rfl | hrestLater
      · have hle := (hrest.of_mem hlt hrestFirst).1
        exact absurd (Nat.lt_of_lt_of_le (hlt _ _ hearliest) hle) (Nat.lt_asymm hbehind)
      · exact ih hrestFirst hrestLater

theorem pairwise_starts (h : FoundFrom Ends text start found)
    (hlt : ∀ first stop, Ends first stop → first < stop) :
    (found.map Match.start).Pairwise (· < ·) := by
  induction h with
  | done _ => exact .nil
  | next _ hends _ hrest ih =>
    refine List.pairwise_cons.mpr ⟨fun later hlater => ?_, ih⟩
    exact Nat.lt_of_lt_of_le (hlt _ _ hends) (hrest.of_mem hlt hlater).1

/-- Where a match could begin, one begins, unless the place lies inside the match before. -/
theorem mem_or_within (h : FoundFrom Ends text start found) (hstart : start ≤ first)
    (hends : Ends first stop) :
    first ∈ found.map Match.start ∨
      ∃ earlier ∈ found.map Match.start, ∃ stop, Ends earlier stop ∧ earlier < first ∧
      first < stop := by
  induction h with
  | done hnone => exact absurd hends (hnone _ hstart _)
  | @next _ earliest earliestStop _ _ hearliest hnone _ ih =>
    by_cases hbefore : first < earliest
    · exact absurd hends (hnone first hstart hbefore stop)
    · rcases Nat.eq_or_lt_of_le (Nat.le_of_not_lt hbefore) with rfl | hbehind
      · exact Or.inl List.mem_cons_self
      · by_cases hinside : first < earliestStop
        · exact Or.inr ⟨earliest, List.mem_cons_self, earliestStop, hearliest, hbehind, hinside⟩
        · rcases ih (Nat.le_of_not_lt hinside) with hmem | ⟨earlier, hmem, hearlier⟩
          · exact Or.inl (List.mem_cons_of_mem _ hmem)
          · exact Or.inr ⟨earlier, List.mem_cons_of_mem _ hmem, hearlier⟩

variable {starts : Finset Nat}

theorem toFinset_subset (h : FoundFrom Ends text start found)
    (hlt : ∀ first stop, Ends first stop → first < stop)
    (hstarts : ∀ first, first ∈ starts ↔ start ≤ first ∧ ∃ stop, Ends first stop) :
    (found.map Match.start).toFinset ⊆ starts := by
  intro first hfirst
  rw [List.mem_toFinset] at hfirst
  exact (hstarts first).mpr (h.of_mem hlt hfirst)

theorem card_toFinset (h : FoundFrom Ends text start found)
    (hlt : ∀ first stop, Ends first stop → first < stop) :
    (found.map Match.start).toFinset.card = found.length := by
  rw [List.toFinset_card_of_nodup ((h.pairwise_starts hlt).imp Nat.ne_of_lt), List.length_map]

theorem length_le_card (h : FoundFrom Ends text start found)
    (hlt : ∀ first stop, Ends first stop → first < stop)
    (hstarts : ∀ first, first ∈ starts ↔ start ≤ first ∧ ∃ stop, Ends first stop) :
    found.length ≤ starts.card := by
  rw [← h.card_toFinset hlt]
  exact Finset.card_le_card (h.toFinset_subset hlt hstarts)

/-- Every place where a match could begin gives a match exactly if none lies inside the match from
another. -/
theorem length_eq_card_iff (h : FoundFrom Ends text start found)
    (hlt : ∀ first stop, Ends first stop → first < stop)
    (hunique : ∀ first stop other, Ends first stop → Ends first other → stop = other)
    (hstarts : ∀ first, first ∈ starts ↔ start ≤ first ∧ ∃ stop, Ends first stop) :
    found.length = starts.card ↔
      ∀ first ∈ starts, ∀ stop, Ends first stop → ∀ other ∈ starts, first < other →
      stop ≤ other := by
  constructor
  · intro hlength first hfirst stop hends other hother hbehind
    have hsame : (found.map Match.start).toFinset = starts :=
      Finset.eq_of_subset_of_card_le (h.toFinset_subset hlt hstarts)
        (by rw [h.card_toFinset hlt, hlength])
    rw [← hsame, List.mem_toFinset] at hfirst hother
    exact h.stop_le hlt hunique hfirst hother hbehind hends
  · intro hapart
    have hall : starts ⊆ (found.map Match.start).toFinset := by
      intro first hfirst
      obtain ⟨hstart, stop, hends⟩ := (hstarts first).mp hfirst
      rw [List.mem_toFinset]
      rcases h.mem_or_within hstart
        hends with hmem | ⟨earlier, hmem, stop, hearlier, hbefore, hinside⟩
      · exact hmem
      · have hearlierStart := (hstarts earlier).mpr (h.of_mem hlt hmem)
        have hbehind := hapart earlier hearlierStart stop hearlier first hfirst hbefore
        exact absurd hinside (Nat.not_lt_of_le hbehind)
    rw [← h.card_toFinset hlt]
    exact congrArg Finset.card (Finset.Subset.antisymm (h.toFinset_subset hlt hstarts) hall)

end FoundFrom

end RiskScan.Pattern

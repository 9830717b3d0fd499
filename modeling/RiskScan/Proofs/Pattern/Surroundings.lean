import RiskScan.Proofs.Pattern.Stops
/-!
# Text around a text

More text before and after a text takes no match away from a pattern that only asks for what is
there. What is looked at from inside the text is there as before; a run may go on into what follows,
but it may also stop where it did. Only word boundaries look beyond the ends: they stay where they
were if no word character comes next to the text, as behind and before a line end.
-/

namespace RiskScan

open Text

/-- No word character touches a text that stands between two others. -/
structure SetApart (preceding following : List Char) : Prop where
  preceding : (preceding.getLast?.map isWord).getD false = false
  following : (following.head?.map isWord).getD false = false

theorem setApart_lines (preceding following : List Char) : SetApart (preceding ++ ['\n'])
    ('\n' :: following) where
  preceding := by rw [List.getLast?_concat]; decide
  following := by rw [List.head?_cons]; decide

namespace Cursor

/-- A place in a text, seen as one in the same text between two others. -/
def within (preceding following : List Char) (cursor : Cursor) : Cursor :=
  ⟨preceding.length + cursor.position, cursor.before.or preceding.getLast?,
    cursor.rest ++ following⟩

variable {preceding following : List Char} {cursor stop : Cursor} {cls : CharClass}

theorem atWordBoundary_within (h : SetApart preceding following) (cursor : Cursor) :
    (cursor.within preceding following).atWordBoundary = cursor.atWordBoundary := by
  obtain ⟨position, before, rest⟩ := cursor
  have hbefore : ((before.or preceding.getLast?).map isWord).getD false =
      (before.map isWord).getD false := by
    cases before with
    | none => exact h.preceding
    | some c => rfl
  have hrest : ((rest ++ following).head?.map isWord).getD false =
      (rest.head?.map isWord).getD false := by
    cases rest with
    | nil => exact h.following
    | cons c rest => rfl
  rw [atWordBoundary, atWordBoundary, within, hbefore, hrest]

theorem skip?_within {chars : List Char} (h : cursor.skip? chars = some stop) :
    (cursor.within preceding following).skip? chars = some (stop.within preceding following) := by
  rw [skip?_eq_some_iff] at h ⊢
  obtain ⟨hrest, hposition, hbefore⟩ := h
  refine ⟨?_, ?_, ?_⟩
  · rw [within, within, hrest, List.append_assoc]
  · rw [within, within, hposition, Nat.add_assoc]
  · rw [within, within, hbefore, Option.or_assoc]

theorem exists_reach (cls : CharClass) (limit : Option Nat) (position : Nat) (rest : List Char)
    (stops : List Cursor) : ∃ further, reach cls limit position rest stops = further ++ stops := by
  fun_induction reach cls limit position rest stops with
  | case1 => exact ⟨[], rfl⟩
  | case2 => exact ⟨[], rfl⟩
  | case3 limit position c rest stops _ _ ih =>
    obtain ⟨further, hfurther⟩ := ih
    exact ⟨further ++ [⟨position + 1, some c, rest⟩], by rw [hfurther, List.append_cons]⟩
  | case4 => exact ⟨[], rfl⟩

/-- A run that reaches the end of the text may go on beyond it, and reaches all other places as
before. -/
theorem exists_reach_within (cls : CharClass) (preceding following : List Char) (limit : Option Nat)
    (position : Nat) (rest : List Char) (stops : List Cursor) :
    ∃ further, reach cls limit (preceding.length + position) (rest ++ following)
      (stops.map (within preceding following)) =
        further ++ (reach cls limit position rest stops).map (within preceding following) := by
  fun_induction reach cls limit position rest stops with
  | case1 => exact ⟨[], by rw [reach, List.nil_append]⟩
  | case2 limit position stops _ => exact exists_reach cls limit _ _ _
  | case3 limit position c rest stops hlimit hholds ih =>
    rw [List.cons_append, reach.eq_3 _ _ _ _ _ _ hlimit, if_pos hholds]
    exact ih
  | case4 limit position c rest stops hlimit hholds =>
    rw [List.cons_append, reach.eq_3 _ _ _ _ _ _ hlimit, if_neg hholds]
    exact ⟨[], rfl⟩

theorem mem_runStops_within {least : Nat} {most : Option Nat}
    (h : stop ∈ cursor.runStops cls least most) :
    stop.within preceding following ∈
      (cursor.within preceding following).runStops cls least most := by
  obtain ⟨further, hfurther⟩ := exists_reach_within cls preceding following most
    cursor.position cursor.rest [cursor]
  have hreach : reach cls most (cursor.within preceding following).position
      (cursor.within preceding following).rest [cursor.within preceding following] =
        further ++ (reach cls most cursor.position cursor.rest [cursor]).map
          (within preceding following) := hfurther
  have hstops : (cursor.within preceding following).runStops cls least most =
      further.take
        (further.length + (reach cls most cursor.position cursor.rest [cursor]).length - least) ++
        (cursor.runStops cls least most).map (within preceding following) := by
    have hlength : ∀ a b : Nat, a + b - least - a = b - least := by omega
    unfold runStops
    dsimp only
    rw [hreach, List.length_append, List.length_map, List.take_append, hlength, List.map_take]
  rw [hstops]
  exact List.mem_append_right _ (List.mem_map_of_mem h)

theorem self_mem_lazyStops (cls : CharClass) (position : Nat) (before : Option Char)
    (rest : List Char) :
    ⟨position, before, rest⟩ ∈ lazyStops cls position before rest := by
  cases rest with
  | nil => exact List.mem_singleton_self _
  | cons c rest => exact List.mem_cons_self

theorem mem_lazyStops_within {position : Nat} {before : Option Char} {rest : List Char}
    (h : stop ∈ lazyStops cls position before rest) :
    stop.within preceding following ∈ lazyStops cls (preceding.length + position)
      (before.or preceding.getLast?) (rest ++ following) := by
  induction rest generalizing position before with
  | nil =>
    rw [lazyStops, List.mem_singleton] at h
    subst h
    exact self_mem_lazyStops ..
  | cons c rest ih =>
    rw [lazyStops, List.mem_cons] at h
    rw [List.cons_append, lazyStops, List.mem_cons]
    rcases h with rfl | h
    · exact Or.inl rfl
    · right
      split at h
      · rename_i hholds
        rw [if_pos hholds]
        exact ih h
      · cases h

section Rounds

variable {body : Cursor → List Cursor}
  (hbody : ∀ cursor stop : Cursor, stop ∈ body cursor →
    stop.within preceding following ∈ body (cursor.within preceding following))

theorem self_mem_manyStops (body : Cursor → List Cursor) (room : List Char) (cursor : Cursor) :
    cursor ∈ manyStops body room cursor := by
  cases room with
  | nil => exact List.mem_singleton_self _
  | cons _ room => exact List.mem_append_right _ (List.mem_singleton_self _)

include hbody

theorem mem_manyStops_within {room : List Char} (h : stop ∈ manyStops body room cursor) :
    stop.within preceding following ∈
      manyStops body (room ++ following) (cursor.within preceding following) := by
  induction room generalizing cursor with
  | nil =>
    rw [manyStops, List.mem_singleton] at h
    subst h
    exact self_mem_manyStops ..
  | cons _ room ih =>
    rw [manyStops, List.mem_append, List.mem_flatMap, List.mem_singleton] at h
    rw [List.cons_append, manyStops, List.mem_append, List.mem_flatMap, List.mem_singleton]
    rcases h with ⟨after, hafter, hstop⟩ | rfl
    · exact Or.inl ⟨_, hbody _ _ hafter, ih hstop⟩
    · exact Or.inr rfl

theorem mem_lazyUpToStops_within {rounds : Nat} (h : stop ∈ lazyUpToStops body rounds cursor) :
    stop.within preceding following ∈
      lazyUpToStops body rounds (cursor.within preceding following) := by
  induction rounds generalizing cursor with
  | zero =>
    rw [lazyUpToStops, List.mem_singleton] at h ⊢
    rw [h]
  | succ rounds ih =>
    rw [lazyUpToStops, List.mem_cons, List.mem_flatMap] at h ⊢
    rcases h with rfl | ⟨after, hafter, hstop⟩
    · exact Or.inl rfl
    · exact Or.inr ⟨_, hbody _ _ hafter, ih hstop⟩

end Rounds

end Cursor

namespace Pattern

open Cursor

/-- No part of the pattern says what must not follow. -/
def forbidsNothing : Pattern → Bool
  | .one _ | .text _ | .run _ _ _ | .lazyRun _ | .wordBoundary => true
  | .seq first second | .either first second => first.forbidsNothing && second.forbidsNothing
  | .many body | .lazyUpTo _ body => body.forbidsNothing
  | .unless _ => false

/-- Wherever such a pattern can stop, it can still stop once the text stands between two others. -/
theorem mem_stops_within {preceding following : List Char} (hapart : SetApart preceding following)
    {pattern : Pattern} (hforbids : pattern.forbidsNothing = true) {cursor stop : Cursor}
    (h : stop ∈ pattern.stops cursor) :
    stop.within preceding following ∈ pattern.stops (cursor.within preceding following) := by
  induction pattern generalizing cursor stop with
  | one cls =>
    obtain ⟨position, before, _ | ⟨c, rest⟩⟩ := cursor
    · cases h
    · rw [stops] at h
      rw [within, List.cons_append, stops]
      split at h
      · rename_i hholds
        rw [List.mem_singleton] at h
        rw [if_pos hholds, h]
        exact List.mem_singleton_self _
      · cases h
  | text chars =>
    rw [stops, Option.mem_toList] at h ⊢
    exact skip?_within h
  | seq first second ihfirst ihsecond =>
    obtain ⟨hfirst, hsecond⟩ := Bool.and_eq_true_iff.mp hforbids
    rw [stops, List.mem_flatMap] at h ⊢
    obtain ⟨middle, hmiddle, hstop⟩ := h
    exact ⟨_, ihfirst hfirst hmiddle, ihsecond hsecond hstop⟩
  | either first second ihfirst ihsecond =>
    obtain ⟨hfirst, hsecond⟩ := Bool.and_eq_true_iff.mp hforbids
    rw [stops, List.mem_append] at h ⊢
    exact h.imp (ihfirst hfirst) (ihsecond hsecond)
  | run cls least most =>
    rw [stops] at h ⊢
    exact mem_runStops_within h
  | lazyRun cls =>
    rw [stops] at h ⊢
    exact mem_lazyStops_within h
  | many body ih =>
    have hbody := fun cursor stop (hstop : stop ∈ body.stops cursor) => ih hforbids hstop
    rw [stops] at h ⊢
    exact mem_manyStops_within hbody h
  | lazyUpTo most body ih =>
    have hbody := fun cursor stop (hstop : stop ∈ body.stops cursor) => ih hforbids hstop
    rw [stops] at h ⊢
    exact mem_lazyUpToStops_within hbody h
  | wordBoundary =>
    rw [stops] at h ⊢
    rw [atWordBoundary_within hapart]
    split at h
    · rename_i hboundary
      rw [if_pos hboundary, List.mem_singleton.mp h]
      exact List.mem_singleton_self _
    · cases h
  | «unless» body => cases hforbids

/-- Lines before and after a text take no match from a pattern that forbids nothing. -/
theorem find_surrounded_ne_nil {pattern : Pattern} (hforbids : pattern.forbidsNothing = true)
    {content : String} (h : pattern.find content ≠ []) (preceding following : String) :
    pattern.find (preceding ++ "\n" ++ content ++ "\n" ++ following) ≠ [] := by
  rw [find_ne_nil_iff] at h ⊢
  obtain ⟨passed, remaining, hcontent, hstops⟩ := h
  obtain ⟨stop, hstop⟩ := List.exists_mem_of_ne_nil _ hstops
  have hwithin := mem_stops_within (setApart_lines preceding.toList following.toList) hforbids hstop
  refine ⟨(preceding.toList ++ ['\n']) ++ passed, remaining ++ ('\n' :: following.toList), ?_, ?_⟩
  · simp only [String.toList_append, hcontent]
    simp
  · rw [List.length_append, List.getLast?_append]
    exact List.ne_nil_of_mem hwithin

end Pattern

end RiskScan

import RiskScan.Proofs.Pattern.Surroundings
/-!
# Patterns that stay on a line

A pattern that takes no line end, and looks for none, finds the same on a line whatever lies before
and behind it: at a line end it has come to the end of what it can take, and no word goes on there.
So the matches in a text are those in its lines, one line after the other.
-/

namespace RiskScan

open Text

/-- A text between two others begins and ends where a line does. -/
structure OwnLines (preceding following : List Char) : Prop where
  preceding : ∀ c ∈ preceding.getLast?, c = '\n'
  following : ∀ c ∈ following.head?, c = '\n'

namespace OwnLines

variable {preceding following : List Char}

theorem setApart (h : OwnLines preceding following) : SetApart preceding following where
  preceding := by
    cases hlast : preceding.getLast? with
    | none => rfl
    | some c =>
      rw [h.preceding c hlast]
      decide
  following := by
    cases hhead : following.head? with
    | none => rfl
    | some c =>
      rw [h.following c hhead]
      decide

theorem of_lines (preceding following : List Char) : OwnLines (preceding ++ ['\n'])
    ('\n' :: following) where
  preceding c hc := by
    rw [List.getLast?_concat] at hc
    exact (Option.some.inj hc).symm
  following c hc := (Option.some.inj hc).symm

theorem behind (preceding : List Char) : OwnLines (preceding ++ ['\n']) [] where
  preceding := (of_lines preceding []).preceding
  following _ hc := nomatch hc

theorem before (following : List Char) : OwnLines [] ('\n' :: following) where
  preceding _ hc := nomatch hc
  following := (of_lines [] following).following

end OwnLines

namespace Cursor

variable {preceding following : List Char} {cursor : Cursor} {cls : CharClass}

theorem skip?_within_eq (hlines : OwnLines preceding following) {chars : List Char}
    (hchars : '\n' ∉ chars) (cursor : Cursor) :
    (cursor.within preceding following).skip? chars =
      (cursor.skip? chars).map (within preceding following) := by
  cases hskip : cursor.skip? chars with
  | some stop => exact skip?_within hskip
  | none =>
    rw [Option.map_none, Option.eq_none_iff_forall_ne_some]
    intro stop hstop
    obtain ⟨hrest, -, -⟩ := skip?_eq_some_iff.mp hstop
    dsimp only [within] at hrest
    rcases List.append_eq_append_iff.mp
      hrest with ⟨inside, hchars', hfollowing⟩ | ⟨inside, hinside, -⟩
    · -- the characters would have to go on behind the line end
      cases inside with
      | nil =>
        rw [List.append_nil] at hchars'
        have hhere : cursor.skip? chars = some ⟨cursor.position + chars.length,
            chars.getLast?.or cursor.before, []⟩ :=
          skip?_eq_some_iff.mpr ⟨by rw [hchars', List.append_nil], rfl, rfl⟩
        cases hskip.symm.trans hhere
      | cons c inside =>
        have hc : c = '\n' := hlines.following c (by rw [hfollowing]; rfl)
        refine hchars ?_
        rw [hchars', hc]
        exact List.mem_append_right _ List.mem_cons_self
    · have hhere : cursor.skip? chars = some ⟨cursor.position + chars.length,
          chars.getLast?.or cursor.before, inside⟩ := skip?_eq_some_iff.mpr ⟨hinside, rfl, rfl⟩
      cases hskip.symm.trans hhere

/-- What cannot be a line end does not go on behind a line. -/
theorem following_eq (hlines : OwnLines preceding following) (hcls : cls.holds '\n' = false) :
    following = [] ∨ ∃ c rest, following = c :: rest ∧ cls.holds c = false := by
  cases hfollowing : following with
  | nil => exact Or.inl rfl
  | cons c rest =>
    have hc : c = '\n' := hlines.following c (by rw [hfollowing]; rfl)
    exact Or.inr ⟨c, rest, rfl, hc ▸ hcls⟩

theorem reach_within (hlines : OwnLines preceding following) (hcls : cls.holds '\n' = false)
    (limit : Option Nat) (position : Nat) (rest : List Char) (stops : List Cursor) :
    reach cls limit (preceding.length + position) (rest ++ following)
      (stops.map (within preceding following)) =
      (reach cls limit position rest stops).map (within preceding following) := by
  fun_induction reach cls limit position rest stops with
  | case1 => rw [reach]
  | case2 limit position stops hlimit =>
    rw [List.nil_append]
    obtain rfl | ⟨c, rest, rfl, hc⟩ := following_eq hlines hcls
    · rw [reach.eq_2 _ _ _ _ hlimit]
    · rw [reach.eq_3 _ _ _ _ _ _ hlimit, if_neg (by simp [hc])]
  | case3 limit position c rest stops hlimit hholds ih =>
    rw [List.cons_append, reach.eq_3 _ _ _ _ _ _ hlimit, if_pos hholds]
    exact ih
  | case4 limit position c rest stops hlimit hholds =>
    rw [List.cons_append, reach.eq_3 _ _ _ _ _ _ hlimit, if_neg hholds]

theorem runStops_within (hlines : OwnLines preceding following) (hcls : cls.holds '\n' = false)
    (least : Nat) (most : Option Nat) (cursor : Cursor) :
    (cursor.within preceding following).runStops cls least most =
      (cursor.runStops cls least most).map (within preceding following) := by
  have hreach := reach_within hlines hcls most cursor.position cursor.rest [cursor]
  have hlength := congrArg List.length hreach
  rw [List.length_map] at hlength
  rw [runStops, runStops, List.map_take, ← hreach, ← hlength]
  rfl

theorem lazyStops_within (hlines : OwnLines preceding following) (hcls : cls.holds '\n' = false)
    (position : Nat) (before : Option Char) (rest : List Char) :
    lazyStops cls (preceding.length + position) (before.or preceding.getLast?) (rest ++ following) =
      (lazyStops cls position before rest).map (within preceding following) := by
  induction rest generalizing position before with
  | nil =>
    rw [List.nil_append]
    obtain rfl | ⟨c, rest, rfl, hc⟩ := following_eq hlines hcls
    · rfl
    · simp only [lazyStops, hc, Bool.false_eq_true, if_false]
      rfl
  | cons c rest ih =>
    rw [List.cons_append, lazyStops, lazyStops, List.map_cons]
    congr 1
    split
    · exact ih (position + 1) (some c)
    · rfl

theorem lazyUpToStops_within {body : Cursor → List Cursor}
    (hbody : ∀ cursor : Cursor, body (cursor.within preceding following) =
      (body cursor).map (within preceding following))
    (rounds : Nat) (cursor : Cursor) :
    lazyUpToStops body rounds (cursor.within preceding following) =
      (lazyUpToStops body rounds cursor).map (within preceding following) := by
  induction rounds generalizing cursor with
  | zero => rfl
  | succ rounds ih =>
    rw [lazyUpToStops, lazyUpToStops, List.map_cons, hbody, List.flatMap_map, List.map_flatMap]
    simp only [ih]

end Cursor

/-- A match in a text that has come to stand behind another one. -/
def Match.behind (preceding : List Char) (found : Match) : Match :=
  ⟨preceding.length + found.start, found.text⟩

namespace Pattern

open Cursor

/-- The pattern neither takes a line end nor looks for one. The rounds of a repetition are counted
by what is left of the text, so a repetition is not said to stay on a line. -/
def staysOnLine : Pattern → Bool
  | .one cls | .run cls _ _ | .lazyRun cls => !cls.holds '\n'
  | .text chars => !chars.contains '\n'
  | .seq first second | .either first second => first.staysOnLine && second.staysOnLine
  | .many _ => false
  | .lazyUpTo _ body | .unless body => body.staysOnLine
  | .wordBoundary => true

variable {preceding following : List Char} {pattern : Pattern}

/-- On lines of its own such a pattern stops where it stops without a text around. -/
theorem stops_within (hlines : OwnLines preceding following) (hstays : pattern.staysOnLine = true)
    (cursor : Cursor) :
    pattern.stops (cursor.within preceding following) =
      (pattern.stops cursor).map (within preceding following) := by
  induction pattern generalizing cursor with
  | one cls =>
    have hcls : cls.holds '\n' = false := by simpa [staysOnLine] using hstays
    obtain ⟨position, before, _ | ⟨c, rest⟩⟩ := cursor
    · rw [within, List.nil_append, stops]
      obtain rfl | ⟨c, rest, rfl, hc⟩ := following_eq hlines hcls
      · rfl
      · rw [stops, if_neg (by simp [hc])]
        rfl
    · rw [within, List.cons_append, stops, stops]
      split <;> rfl
  | text chars =>
    have hchars : '\n' ∉ chars := by
      simpa [staysOnLine] using hstays
    rw [stops, stops, skip?_within_eq hlines hchars]
    cases cursor.skip? chars <;> rfl
  | seq first second ihfirst ihsecond =>
    obtain ⟨hfirst, hsecond⟩ := Bool.and_eq_true_iff.mp hstays
    rw [stops, stops, ihfirst hfirst, List.flatMap_map, List.map_flatMap]
    simp only [ihsecond hsecond]
  | either first second ihfirst ihsecond =>
    obtain ⟨hfirst, hsecond⟩ := Bool.and_eq_true_iff.mp hstays
    rw [stops, stops, ihfirst hfirst, ihsecond hsecond, List.map_append]
  | run cls least most =>
    have hcls : cls.holds '\n' = false := by simpa [staysOnLine] using hstays
    exact runStops_within hlines hcls least most cursor
  | lazyRun cls =>
    have hcls : cls.holds '\n' = false := by simpa [staysOnLine] using hstays
    exact lazyStops_within hlines hcls cursor.position cursor.before cursor.rest
  | many body => cases hstays
  | lazyUpTo most body ih => exact lazyUpToStops_within (ih hstays) most cursor
  | wordBoundary =>
    rw [stops, stops, atWordBoundary_within hlines.setApart]
    split <;> rfl
  | «unless» body ih =>
    rw [stops, stops, ih hstays, List.isEmpty_map]
    split <;> rfl

theorem matchEnd?_within (hlines : OwnLines preceding following)
    (hstays : pattern.staysOnLine = true) (cursor : Cursor) :
    pattern.matchEnd? (cursor.within preceding following) =
      (pattern.matchEnd? cursor).map (within preceding following) := by
  rw [matchEnd?_eq, matchEnd?_eq, stops_within hlines hstays, List.head?_map]

/-! ### One line after the other -/

/-- The matches that begin in what comes behind some lines, one line end further on. -/
def findBehind (pattern : Pattern) (position : Nat) : (following : List Char) → List Match
  | [] => []
  | c :: rest => pattern.findFrom (position + 1) (some c) rest

theorem position_of_matchEnd?_nil {position : Nat} {before : Option Char} {stop : Cursor}
    (h : pattern.matchEnd? ⟨position, before, []⟩ = some stop) : stop.position = position := by
  obtain ⟨passed, hahead, -⟩ := taken_of_matchEnd? h
  obtain ⟨rfl, -⟩ := List.append_eq_nil_iff.mp hahead.rest.symm
  exact hahead.position

/-- Where a text ends, the search goes on to what comes behind it. -/
theorem findFrom_within_nil (hlines : OwnLines preceding following)
    (hstays : pattern.staysOnLine = true) (position : Nat) (before : Option Char) :
    pattern.findFrom (preceding.length + position) (before.or preceding.getLast?) following =
      (pattern.findFrom position before []).map (Match.behind preceding) ++
        pattern.findBehind (preceding.length + position) following := by
  have hend := matchEnd?_within hlines hstays ⟨position, before, []⟩
  rw [within, List.nil_append] at hend
  cases hmatch : pattern.matchEnd? ⟨position, before, []⟩ with
  | none =>
    rw [hmatch, Option.map_none] at hend
    rw [findFrom, hmatch]
    cases following with
    | nil =>
      rw [findFrom, hend]
      rfl
    | cons c rest => exact findFrom_cons_of_none hend
  | some stop =>
    have hposition := position_of_matchEnd?_nil hmatch
    rw [hmatch, Option.map_some] at hend
    rw [findFrom, hmatch]
    cases following with
    | nil =>
      rw [findFrom, hend]
      rfl
    | cons c rest =>
      refine findFrom_cons_of_empty hend ?_
      rw [within, hposition, Nat.sub_self]

/-- The matches in a text are there as before when it stands on lines of its own, and those behind
it follow. -/
theorem findFrom_within (hlines : OwnLines preceding following)
    (hstays : pattern.staysOnLine = true) (position : Nat) (before : Option Char)
    (rest : List Char) :
    pattern.findFrom (preceding.length + position) (before.or preceding.getLast?)
      (rest ++ following) =
      (pattern.findFrom position before rest).map (Match.behind preceding) ++
        pattern.findBehind (preceding.length + position + rest.length) following := by
  induction hlength : rest.length using Nat.strongRecOn generalizing position before rest with
  | ind length ih =>
    cases rest with
    | nil =>
      subst hlength
      exact findFrom_within_nil hlines hstays position before
    | cons c rest =>
      have hend := matchEnd?_within hlines hstays ⟨position, before, c :: rest⟩
      rw [within, List.cons_append] at hend
      have hnext :=
        ih rest.length (by rw [← hlength]; exact Nat.lt_succ_self _) (position + 1)
          (some c) rest rfl
      have hbehind : preceding.length + (position + 1) + rest.length =
          preceding.length + position + length := by
        rw [← hlength, List.length_cons]
        omega
      rw [hbehind] at hnext
      cases hmatch : pattern.matchEnd? ⟨position, before, c :: rest⟩ with
      | none =>
        rw [hmatch, Option.map_none] at hend
        rw [List.cons_append, findFrom_cons_of_none hend, findFrom_cons_of_none hmatch]
        exact hnext
      | some stop =>
        rw [hmatch, Option.map_some] at hend
        have hcount : (stop.within preceding following).position - (preceding.length + position) =
            stop.position - position := Nat.add_sub_add_left preceding.length stop.position position
        by_cases hempty : stop.position - position = 0
        · rw [List.cons_append, findFrom_cons_of_empty hend (hcount.trans hempty),
            findFrom_cons_of_empty hmatch hempty, List.map_cons, List.cons_append]
          exact congrArg (_ :: ·) hnext
        · obtain ⟨passed, hahead, -⟩ := taken_of_matchEnd? hmatch
          have hpassed : stop.position - position = passed.length := by
            rw [hahead.position, Nat.add_sub_cancel_left]
          have hrest : c :: rest = passed ++ stop.rest := hahead.rest
          have hlengths : length = passed.length + stop.rest.length := by
            rw [← hlength, hrest, List.length_append]
          have hshorter : stop.rest.length < length := by omega
          have hlater := ih stop.rest.length hshorter stop.position stop.before stop.rest rfl
          have hbehind : preceding.length + stop.position + stop.rest.length =
              preceding.length + position + length := by
            rw [hahead.position, hlengths]
            dsimp only
            omega
          rw [hbehind] at hlater
          rw [List.cons_append, findFrom_cons_of_some hend (hcount.trans_ne hempty),
            findFrom_cons_of_some hmatch hempty, hcount, ← List.cons_append, hpassed, hrest,
            List.append_assoc, List.take_left, List.take_left, List.drop_left, List.drop_left,
            List.map_cons, List.cons_append]
          exact congrArg (_ :: ·) hlater

/-- In two texts with a line end between them such a pattern finds what it finds in each. -/
theorem find_append_lineEnd (hstays : pattern.staysOnLine = true) (first second : String) :
    pattern.find (first ++ "\n" ++ second) = pattern.find first ++ pattern.find second := by
  have hfirst := findFrom_within (.before second.toList) hstays 0 none first.toList
  have hsecond := findFrom_within (.behind first.toList) hstays 0 none second.toList
  simp only [List.length_nil, Nat.zero_add, Option.none_or, List.getLast?_nil, findBehind,
    List.append_nil, List.getLast?_concat, List.length_append, List.length_singleton,
    Nat.add_zero] at hfirst hsecond
  have htext : (first ++ "\n" ++ second).toList = first.toList ++ '\n' :: second.toList := by
    simp
  rw [find, find, find, matchesIn, matchesIn, matchesIn, htext, hfirst, hsecond]
  simp [Match.behind, Function.comp_def]

/-- The lines of a text; a line end at its end is followed by an empty line. -/
def linesOf (content : String) : List String :=
  (content.toList.splitOn '\n').map String.ofList

theorem lineEnd_notMem_of_mem_splitOn {chars line : List Char} (h : line ∈ chars.splitOn '\n') :
    '\n' ∉ line := by
  induction chars generalizing line with
  | nil =>
    rw [List.splitOn_eq_singleton List.not_mem_nil, List.mem_singleton] at h
    exact h ▸ List.not_mem_nil
  | cons c chars ih =>
    rw [List.splitOn, List.splitOnP_cons_eq_if_modifyHead] at h
    split at h
    · rcases List.mem_cons.mp h with rfl | h
      · exact List.not_mem_nil
      · exact ih h
    next hc =>
      obtain ⟨first, lines, hsplit⟩ := List.exists_cons_of_ne_nil (List.splitOn_ne_nil '\n' chars)
      have hsplit' : List.splitOnP (· == '\n') chars = first :: lines := hsplit
      rw [hsplit', List.modifyHead_cons, List.mem_cons] at h
      rw [hsplit] at ih
      rcases h with rfl | h
      · have hfirst := ih List.mem_cons_self
        rw [List.mem_cons, not_or]
        exact ⟨fun heq => hc (by simp [← heq]), hfirst⟩
      · exact ih (List.mem_cons_of_mem _ h)

theorem lineEnd_notMem_of_mem_linesOf {content line : String} (h : line ∈ linesOf content) :
    '\n' ∉ line.toList := by
  obtain ⟨chars, hchars, rfl⟩ := List.mem_map.mp h
  rw [String.toList_ofList]
  exact lineEnd_notMem_of_mem_splitOn hchars

/-- The matches in a text are those in its lines. -/
theorem find_eq_flatMap_linesOf (hstays : pattern.staysOnLine = true) (content : String) :
    pattern.find content = (linesOf content).flatMap pattern.find := by
  have hlines : ∀ lines : List (List Char), lines ≠ [] →
      pattern.find (String.ofList (['\n'].intercalate lines)) =
        (lines.map String.ofList).flatMap pattern.find := by
    intro lines hne
    induction lines with
    | nil => exact absurd rfl hne
    | cons line lines ih =>
      cases lines with
      | nil => simp
      | cons next lines =>
        have hjoined : String.ofList (['\n'].intercalate (line :: next :: lines)) =
            String.ofList line ++ "\n" ++ String.ofList (['\n'].intercalate (next :: lines)) := by
          rw [List.intercalate_cons_cons, String.ofList_append, String.ofList_append]
        rw [hjoined, find_append_lineEnd hstays, ih (List.cons_ne_nil _ _)]
        rfl
  have hcontent := hlines (content.toList.splitOn '\n') (List.splitOn_ne_nil _ _)
  rwa [List.intercalate_splitOn, String.ofList_toList] at hcontent

end Pattern

end RiskScan

import Mathlib.Data.List.Basic
import RiskScan.Pattern
/-!
# Where a pattern stops

From a place in a text a pattern may stop at several others, and tries them in a fixed order.
Whatever has to follow, the search comes to the first of these stops from which it can be completed.
So the order of the stops is all that there is to the search, and a pattern matches in a text if it
has a stop from some place. Every stop lies ahead of the place where the pattern begins, in the same
text, and what lies between them is told by the pattern alone.
-/

namespace RiskScan

namespace Cursor

/-- The places after a run of a class, the nearest first. -/
def lazyStops (cls : CharClass) :
    (position : Nat) → (before : Option Char) → (rest : List Char) → List Cursor
  | position, before, [] => [⟨position, before, []⟩]
  | position, before, c :: rest =>
    ⟨position, before, c :: rest⟩ ::
      if cls.holds c then lazyStops cls (position + 1) (some c) rest else []

/-- The places after some rounds of a body, as many as possible first. -/
def manyStops (body : Cursor → List Cursor) : (room : List Char) → Cursor → List Cursor
  | [], cursor => [cursor]
  | _ :: room, cursor => (body cursor).flatMap (manyStops body room) ++ [cursor]

/-- The places after some rounds of a body, as few as possible first. -/
def lazyUpToStops (body : Cursor → List Cursor) : (rounds : Nat) → Cursor → List Cursor
  | 0, cursor => [cursor]
  | rounds + 1, cursor => cursor :: (body cursor).flatMap (lazyUpToStops body rounds)

/-- One place lies ahead of another, with some characters between them. -/
structure Ahead (cursor : Cursor) (passed : List Char) (stop : Cursor) : Prop where
  rest : cursor.rest = passed ++ stop.rest
  position : stop.position = cursor.position + passed.length
  before : stop.before = passed.getLast?.or cursor.before

namespace Ahead

variable {cursor middle stop : Cursor} {first second passed : List Char}

theorem refl (cursor : Cursor) : Ahead cursor [] cursor := ⟨rfl, rfl, rfl⟩

theorem trans (hfirst : Ahead cursor first middle) (hsecond : Ahead middle second stop) :
    Ahead cursor (first ++ second) stop where
  rest := by rw [hfirst.rest, hsecond.rest, List.append_assoc]
  position := by rw [hsecond.position, hfirst.position, List.length_append, Nat.add_assoc]
  before := by rw [hsecond.before, hfirst.before, List.getLast?_append, Option.or_assoc]

theorem next (position : Nat) (before : Option Char) (c : Char) (rest : List Char) :
    Ahead ⟨position, before, c :: rest⟩ [c] ⟨position + 1, some c, rest⟩ := ⟨rfl, rfl, rfl⟩

theorem skip? {chars : List Char} (h : cursor.skip? chars = some stop) :
    Ahead cursor chars stop := by
  obtain ⟨hrest, hposition, hbefore⟩ := skip?_eq_some_iff.mp h
  exact ⟨hrest, hposition, hbefore⟩

end Ahead

end Cursor

namespace Pattern

open Cursor

/-- The places at which the pattern may stop, in the order in which they are tried. -/
def stops : Pattern → Cursor → List Cursor
  | .one cls, ⟨position, _, c :: rest⟩ => if cls.holds c then [⟨position + 1, some c, rest⟩] else []
  | .one _, ⟨_, _, []⟩ => []
  | .text chars, cursor => (cursor.skip? chars).toList
  | .seq first second, cursor => (first.stops cursor).flatMap second.stops
  | .either first second, cursor => first.stops cursor ++ second.stops cursor
  | .run cls least most, cursor => cursor.runStops cls least most
  | .lazyRun cls, cursor => lazyStops cls cursor.position cursor.before cursor.rest
  | .many body, cursor => manyStops body.stops cursor.rest cursor
  | .lazyUpTo most body, cursor => lazyUpToStops body.stops most cursor
  | .wordBoundary, cursor => if cursor.atWordBoundary then [cursor] else []
  | .unless body, cursor => if (body.stops cursor).isEmpty then [cursor] else []

theorem findSome?_flatMap {α β γ : Type} (items : List α) (f : α → List β) (g : β → Option γ) :
    (items.flatMap f).findSome? g = items.findSome? fun a => (f a).findSome? g := by
  induction items with
  | nil => rfl
  | cons item items ih =>
    rw [List.flatMap_cons, List.findSome?_append, ih, List.findSome?_cons]
    cases (f item).findSome? g <;> rfl

theorem searchLazyRun_eq (cls : CharClass) (next : Continuation) (position : Nat)
    (before : Option Char) (rest : List Char) : searchLazyRun cls next position before rest =
      (lazyStops cls position before rest).findSome? next := by
  induction rest generalizing position before with
  | nil => rw [searchLazyRun, lazyStops, List.findSome?_singleton]
  | cons c rest ih =>
    rw [searchLazyRun, lazyStops, List.findSome?_cons]
    cases next ⟨position, before, c :: rest⟩ with
    | some stop => rfl
    | none =>
      dsimp only
      split
      · exact ih _ _
      · rfl

section Rounds

variable {body : Cursor → List Cursor} {search : Cursor → Continuation → Option Cursor}
  (hbody : ∀ cursor next, search cursor next = (body cursor).findSome? next)

include hbody

theorem searchMany_eq (room : List Char) (cursor : Cursor) (next : Continuation) :
    searchMany search room cursor next = (manyStops body room cursor).findSome? next := by
  induction room generalizing cursor with
  | nil => rw [searchMany, manyStops, List.findSome?_singleton]
  | cons _ room ih =>
    simp only [searchMany, manyStops, hbody, ih, List.findSome?_append, findSome?_flatMap,
      List.findSome?_singleton]
    cases (body cursor).findSome? fun after => (manyStops body room after).findSome? next <;> rfl

theorem searchLazyUpTo_eq (rounds : Nat) (cursor : Cursor) (next : Continuation) :
    searchLazyUpTo search rounds cursor next =
      (lazyUpToStops body rounds cursor).findSome? next := by
  induction rounds generalizing cursor with
  | zero => rw [searchLazyUpTo, lazyUpToStops, List.findSome?_singleton]
  | succ rounds ih =>
    simp only [searchLazyUpTo, lazyUpToStops, hbody, ih, List.findSome?_cons, findSome?_flatMap]
    cases next cursor <;> rfl

end Rounds

/-- A search comes to the first stop from which what follows can be found. -/
theorem search_eq (pattern : Pattern) (cursor : Cursor) (next : Continuation) :
    pattern.search cursor next = (pattern.stops cursor).findSome? next := by
  induction pattern generalizing cursor next with
  | one cls =>
    obtain ⟨position, before, _ | ⟨c, rest⟩⟩ := cursor
    · rfl
    · rw [search, stops]
      split
      · rw [List.findSome?_singleton]
      · rfl
  | text chars =>
    rw [search, stops]
    cases cursor.skip? chars with
    | none => rfl
    | some stop => rw [Option.toList_some, List.findSome?_singleton, Option.bind_some]
  | seq first second ihfirst ihsecond =>
    rw [search, stops, ihfirst, findSome?_flatMap]
    simp only [ihsecond]
  | either first second ihfirst ihsecond =>
    rw [search, stops, List.findSome?_append, ihfirst, ihsecond]
    cases (first.stops cursor).findSome? next <;> rfl
  | run cls least most => rw [search, stops]
  | lazyRun cls => rw [search, stops, searchLazyRun_eq]
  | many body ih => rw [search, stops, searchMany_eq ih]
  | lazyUpTo most body ih => rw [search, stops, searchLazyUpTo_eq ih]
  | wordBoundary =>
    rw [search, stops]
    split
    · rw [List.findSome?_singleton]
    · rfl
  | «unless» body ih =>
    rw [search, stops, ih]
    cases hstops : body.stops cursor with
    | nil => rw [List.isEmpty_nil, if_pos rfl, List.findSome?_singleton]; rfl
    | cons stop others => rfl

theorem matchEnd?_eq (pattern : Pattern) (cursor : Cursor) :
    pattern.matchEnd? cursor = (pattern.stops cursor).head? := by
  rw [matchEnd?, search_eq]
  cases pattern.stops cursor with
  | nil => rfl
  | cons stop others => rw [List.findSome?_cons, List.head?_cons]

section Ahead

variable {cursor stop : Cursor}

/-! ### What is taken between a place and a stop -/

/-- What a pattern may take, whatever stands around it. How long a run is and how many rounds there
are is left open. -/
def Takes : Pattern → List Char → Prop
  | .one cls, taken => ∃ c, cls.holds c = true ∧ taken = [c]
  | .text chars, taken => taken = chars
  | .seq first second, taken => ∃ front back, first.Takes front ∧ second.Takes back ∧
      taken = front ++ back
  | .either first second, taken => first.Takes taken ∨ second.Takes taken
  | .run cls _ _, taken => ∀ c ∈ taken, cls.holds c = true
  | .lazyRun cls, taken => ∀ c ∈ taken, cls.holds c = true
  | .many body, taken => ∃ rounds : List (List Char), (∀ round ∈ rounds, body.Takes round) ∧
      taken = rounds.flatten
  | .lazyUpTo _ body, taken =>
    ∃ rounds : List (List Char), (∀ round ∈ rounds, body.Takes round) ∧ taken = rounds.flatten
  | .wordBoundary, taken => taken = []
  | .unless _, taken => taken = []

section Runs

variable {cls : CharClass} {position : Nat} {before : Option Char} {rest : List Char}

theorem taken_of_mem_reach {limit : Option Nat} {stops : List Cursor} {origin : Cursor}
    (horigin : ∃ before passed, Ahead origin passed ⟨position, before, rest⟩ ∧
      ∀ c ∈ passed, cls.holds c = true)
    (hstops : ∀ stop ∈ stops, ∃ passed, Ahead origin passed stop ∧ ∀ c ∈ passed, cls.holds c = true)
    (h : stop ∈ reach cls limit position rest stops) :
    ∃ passed, Ahead origin passed stop ∧ ∀ c ∈ passed, cls.holds c = true := by
  fun_induction reach cls limit position rest stops with
  | case1 => exact hstops stop h
  | case2 => exact hstops stop h
  | case3 limit position c rest stops _ hholds ih =>
    obtain ⟨before, passed, hahead, hall⟩ := horigin
    have hnext := hahead.trans (.next position before c rest)
    have hboth : ∀ d ∈ passed ++ [c], cls.holds d = true :=
      List.forall_mem_append.mpr ⟨hall, List.forall_mem_singleton.mpr hholds⟩
    refine ih ⟨some c, _, hnext, hboth⟩ ?_ h
    intro other hother
    rcases List.mem_cons.mp hother with rfl | hold
    · exact ⟨_, hnext, hboth⟩
    · exact hstops other hold
  | case4 => exact hstops stop h

theorem taken_of_mem_lazyStops (h : stop ∈ lazyStops cls position before rest) :
    ∃ passed, Ahead ⟨position, before, rest⟩ passed stop ∧ ∀ c ∈ passed, cls.holds c = true := by
  induction rest generalizing position before with
  | nil =>
    rw [lazyStops, List.mem_singleton] at h
    exact ⟨[], h ▸ .refl _, List.forall_mem_nil _⟩
  | cons c rest ih =>
    rw [lazyStops, List.mem_cons] at h
    rcases h with rfl | h
    · exact ⟨[], .refl _, List.forall_mem_nil _⟩
    · split at h
      next hholds =>
        obtain ⟨passed, hahead, hall⟩ := ih h
        exact ⟨_, (Ahead.next position before c rest).trans hahead,
          List.forall_mem_cons.mpr ⟨hholds, hall⟩⟩
      next => cases h

end Runs

section Rounds

variable {body : Cursor → List Cursor} {BodyTakes : List Char → Prop}
  (hbody : ∀ cursor stop : Cursor, stop ∈ body cursor → ∃ passed, Ahead cursor passed stop ∧
    BodyTakes passed)

include hbody

theorem taken_of_mem_manyStops {room : List Char} (h : stop ∈ manyStops body room cursor) :
    ∃ rounds : List (List Char), Ahead cursor rounds.flatten stop ∧
    ∀ round ∈ rounds, BodyTakes round := by
  induction room generalizing cursor with
  | nil =>
    rw [manyStops, List.mem_singleton] at h
    exact ⟨[], h ▸ .refl _, List.forall_mem_nil _⟩
  | cons _ room ih =>
    rw [manyStops, List.mem_append, List.mem_flatMap, List.mem_singleton] at h
    rcases h with ⟨middle, hmiddle, h⟩ | rfl
    · obtain ⟨round, hround, htakes⟩ := hbody cursor middle hmiddle
      obtain ⟨rounds, hrounds, hall⟩ := ih h
      exact ⟨round :: rounds, hround.trans hrounds, List.forall_mem_cons.mpr ⟨htakes, hall⟩⟩
    · exact ⟨[], .refl _, List.forall_mem_nil _⟩

theorem taken_of_mem_lazyUpToStops {most : Nat} (h : stop ∈ lazyUpToStops body most cursor) :
    ∃ rounds : List (List Char), Ahead cursor rounds.flatten stop ∧
    ∀ round ∈ rounds, BodyTakes round := by
  induction most generalizing cursor with
  | zero =>
    rw [lazyUpToStops, List.mem_singleton] at h
    exact ⟨[], h ▸ .refl _, List.forall_mem_nil _⟩
  | succ most ih =>
    rw [lazyUpToStops, List.mem_cons, List.mem_flatMap] at h
    rcases h with rfl | ⟨middle, hmiddle, h⟩
    · exact ⟨[], .refl _, List.forall_mem_nil _⟩
    · obtain ⟨round, hround, htakes⟩ := hbody cursor middle hmiddle
      obtain ⟨rounds, hrounds, hall⟩ := ih h
      exact ⟨round :: rounds, hround.trans hrounds, List.forall_mem_cons.mpr ⟨htakes, hall⟩⟩

end Rounds

/-- Every stop of a pattern lies ahead of the place where it begins, behind what the pattern has
taken. -/
theorem taken_of_mem_stops (pattern : Pattern) {cursor stop : Cursor}
    (h : stop ∈ pattern.stops cursor) :
    ∃ passed, Ahead cursor passed stop ∧ pattern.Takes passed := by
  induction pattern generalizing cursor stop with
  | one cls =>
    obtain ⟨position, before, _ | ⟨c, rest⟩⟩ := cursor
    · cases h
    · rw [stops] at h
      split at h
      next hholds =>
        rw [List.mem_singleton.mp h]
        exact ⟨[c], .next position before c rest, c, hholds, rfl⟩
      next => cases h
  | text chars =>
    rw [stops, Option.mem_toList] at h
    exact ⟨chars, .skip? h, rfl⟩
  | seq first second ihfirst ihsecond =>
    rw [stops, List.mem_flatMap] at h
    obtain ⟨middle, hmiddle, h⟩ := h
    obtain ⟨front, hfront, hfirst⟩ := ihfirst hmiddle
    obtain ⟨back, hback, hsecond⟩ := ihsecond h
    exact ⟨_, hfront.trans hback, front, back, hfirst, hsecond, rfl⟩
  | either first second ihfirst ihsecond =>
    rw [stops, List.mem_append] at h
    obtain h | h := h
    · obtain ⟨passed, hahead, htakes⟩ := ihfirst h
      exact ⟨passed, hahead, Or.inl htakes⟩
    · obtain ⟨passed, hahead, htakes⟩ := ihsecond h
      exact ⟨passed, hahead, Or.inr htakes⟩
  | run cls least most =>
    rw [stops] at h
    refine taken_of_mem_reach ⟨cursor.before, [], .refl cursor, List.forall_mem_nil _⟩ ?_
      (List.mem_of_mem_take h)
    intro other hother
    rw [List.mem_singleton.mp hother]
    exact ⟨[], .refl cursor, List.forall_mem_nil _⟩
  | lazyRun cls =>
    rw [stops] at h
    exact taken_of_mem_lazyStops h
  | many body ih =>
    rw [stops] at h
    obtain ⟨rounds, hahead, hall⟩ := taken_of_mem_manyStops (fun _ _ => ih) h
    exact ⟨_, hahead, rounds, hall, rfl⟩
  | lazyUpTo most body ih =>
    rw [stops] at h
    obtain ⟨rounds, hahead, hall⟩ := taken_of_mem_lazyUpToStops (fun _ _ => ih) h
    exact ⟨_, hahead, rounds, hall, rfl⟩
  | wordBoundary =>
    rw [stops] at h
    split at h
    · rw [List.mem_singleton.mp h]
      exact ⟨[], .refl cursor, rfl⟩
    · cases h
  | «unless» body ih =>
    rw [stops] at h
    split at h
    · rw [List.mem_singleton.mp h]
      exact ⟨[], .refl cursor, rfl⟩
    · cases h

theorem taken_of_matchEnd? {pattern : Pattern} {cursor stop : Cursor}
    (h : pattern.matchEnd? cursor = some stop) :
    ∃ passed, Ahead cursor passed stop ∧ pattern.Takes passed := by
  rw [matchEnd?_eq] at h
  exact taken_of_mem_stops pattern (List.mem_of_head? h)

end Ahead

/-! ### Matches in a text -/

section

variable {pattern : Pattern} {position : Nat} {before : Option Char} {c : Char} {rest : List Char}
    {stop : Cursor}

theorem findFrom_cons_of_none (h : pattern.matchEnd? ⟨position, before, c :: rest⟩ = none) :
    pattern.findFrom position before (c :: rest) = pattern.findFrom (position + 1)
      (some c) rest := by
  rw [findFrom, h]

theorem findFrom_cons_of_empty (h : pattern.matchEnd? ⟨position, before, c :: rest⟩ = some stop)
    (hempty : stop.position - position = 0) :
    pattern.findFrom position before (c :: rest) =
      ⟨position, []⟩ :: pattern.findFrom (position + 1) (some c) rest := by
  rw [findFrom, h]
  dsimp only
  rw [if_pos hempty]

theorem findFrom_cons_of_some (h : pattern.matchEnd? ⟨position, before, c :: rest⟩ = some stop)
    (hsome : stop.position - position ≠ 0) :
    pattern.findFrom position before (c :: rest) =
      ⟨position, (c :: rest).take (stop.position - position)⟩ ::
        pattern.findFrom stop.position stop.before
          ((c :: rest).drop (stop.position - position)) := by
  rw [findFrom, h]
  dsimp only
  rw [if_neg hsome]

end

theorem findFrom_ne_nil_iff (pattern : Pattern) (position : Nat) (before : Option Char)
    (rest : List Char) : pattern.findFrom position before rest ≠ [] ↔
      ∃ passed remaining, rest = passed ++ remaining ∧
        pattern.stops ⟨position + passed.length, passed.getLast?.or before, remaining⟩ ≠ [] := by
  induction rest generalizing position before with
  | nil =>
    have hhere : ∀ passed remaining : List Char, [] = passed ++ remaining ↔
        passed = [] ∧ remaining = [] :=
      fun passed remaining => eq_comm.trans List.append_eq_nil_iff
    simp only [findFrom, matchEnd?_eq, hhere]
    cases hstops : pattern.stops ⟨position, before, []⟩ <;> simp [hstops]
  | cons c rest ih =>
    by_cases hhere : pattern.stops ⟨position, before, c :: rest⟩ = []
    · have hend : pattern.matchEnd? ⟨position, before, c :: rest⟩ = none := by
        rw [matchEnd?_eq, hhere, List.head?_nil]
      rw [findFrom_cons_of_none hend, ih]
      have hplace : ∀ passed remaining : List Char,
          (⟨position + (c :: passed).length, (c :: passed).getLast?.or before, remaining⟩ :
            Cursor) =
            ⟨position + 1 + passed.length, passed.getLast?.or (some c), remaining⟩ := by
        intro passed remaining
        rw [List.length_cons, Nat.add_comm passed.length, Nat.add_assoc, List.getLast?_cons]
        cases passed.getLast? <;> rfl
      constructor
      · rintro ⟨passed, remaining, rfl, hstops⟩
        exact ⟨c :: passed, remaining, rfl, by rwa [hplace]⟩
      · rintro ⟨passed, remaining, heq, hstops⟩
        rcases List.cons_eq_append_iff.mp heq with ⟨rfl, rfl⟩ | ⟨others, rfl, rfl⟩
        · exact absurd hhere hstops
        · exact ⟨others, remaining, rfl, by rwa [hplace] at hstops⟩
    · refine iff_of_true ?_ ⟨[], c :: rest, rfl, by simpa using hhere⟩
      obtain ⟨stop, hend⟩ : ∃ stop, pattern.matchEnd? ⟨position, before, c :: rest⟩ =
          some stop := by
        rw [matchEnd?_eq]
        exact Option.ne_none_iff_exists'.mp (mt List.head?_eq_none_iff.mp hhere)
      rw [findFrom, hend]
      dsimp only
      split <;> exact List.cons_ne_nil _ _

/-- A pattern matches in a text exactly if it can stop somewhere from some place in it. -/
theorem find_ne_nil_iff (pattern : Pattern) (content : String) :
    pattern.find content ≠ [] ↔ ∃ passed remaining, content.toList = passed ++ remaining ∧
      pattern.stops ⟨passed.length, passed.getLast?, remaining⟩ ≠ [] := by
  rw [find, matchesIn, ne_eq, List.map_eq_nil_iff, ← ne_eq, findFrom_ne_nil_iff]
  simp only [Nat.zero_add, Option.or_none]

end Pattern

end RiskScan

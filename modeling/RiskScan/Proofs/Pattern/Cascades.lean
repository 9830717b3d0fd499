import RiskScan.Proofs.Pattern.Runs
import RiskScan.Signature.BuiltIn
/-!
# Cascades of published events

The pattern for a cascade takes as much of a line as it can, and as few further lines as it can.
What looks as if it came to the nearest call comes to the furthest one: no call stands at the end of
a line, so the pattern goes on to as many lines as it may, and only then takes less of the last of
them. So a match ends with the last call that is near enough to the first, and is there if any call
is.
-/

namespace RiskScan.Signature

open Cursor Pattern

def publishCall : List Char := ".publish(".toList

/-- A publishing call begins here. -/
def CallAt (text : List Char) (position : Nat) : Prop :=
  publishCall <+: text.drop position

/-- The line ends between two places of a text. -/
def lineEnds (text : List Char) (first last : Nat) : Nat :=
  ((text.drop first).take (last - first)).count '\n'

/-- Two calls, one behind the other, with at most `window` line ends between them. -/
structure Linked (window : Nat) (text : List Char) (first second : Nat) : Prop where
  firstCall : CallAt text first
  secondCall : CallAt text second
  lt : first < second
  near : lineEnds text (first + publishCall.length) second ≤ window

/-- A cascade goes from a call to the end of the last one that is linked to it. -/
def Cascade (window : Nat) (text : List Char) (first stop : Nat) : Prop :=
  ∃ second, Linked window text first second ∧
    (∀ later, Linked window text first later → later ≤ second) ∧ stop = second + publishCall.length

variable {text : List Char} {first second start stop window : Nat} {c : Char}

/-! ### Calls and line ends -/

theorem CallAt.add_length_le (h : CallAt text first) :
    first + publishCall.length ≤ text.length := by
  have hlength := h.length_le
  have hpos : 0 < publishCall.length := by decide
  rw [List.length_drop] at hlength
  omega

theorem CallAt.getElem? (h : CallAt text first) {offset : Nat}
    (hoffset : offset < publishCall.length) :
    text[first + offset]? = publishCall[offset]? := by
  obtain ⟨rest, hrest⟩ := h
  rw [← List.getElem?_drop, ← hrest, List.getElem?_append_left hoffset]

/-- Calls do not overlap: no other character of a call is its first. -/
theorem CallAt.add_length_le_of_lt (hfirst : CallAt text first) (hsecond : CallAt text second)
    (hlt : first < second) : first + publishCall.length ≤ second := by
  by_contra hnot
  have hoffset : second - first < publishCall.length := by omega
  have hdot : text[second + 0]? = some '.' := hsecond.getElem? (by decide)
  have hinside := hfirst.getElem? hoffset
  rw [Nat.add_sub_cancel' (Nat.le_of_lt hlt), ← Nat.add_zero second, hdot] at hinside
  have hnone : ∀ offset < publishCall.length, 0 < offset →
      publishCall[offset]? ≠ some '.' := by decide
  exact hnone _ hoffset (by omega) hinside.symm

theorem lineEnds_self (text : List Char) (start : Nat) : lineEnds text start start = 0 := by
  rw [lineEnds, Nat.sub_self, List.take_zero, List.count_nil]

theorem lineEnds_of_lt (hget : text[start]? = some c) (hlt : start < stop) :
    lineEnds text start stop = lineEnds text (start + 1) stop + if c == '\n' then 1 else 0 := by
  have hlength : stop - start = stop - (start + 1) + 1 := by omega
  rw [lineEnds, drop_eq_cons hget, hlength, List.take_succ_cons, List.count_cons, lineEnds]

/-! ### What follows a call -/

/-- A further line: its beginning, and as much of it as possible. -/
def furtherLine : Pattern := .seq (literal "\n") restOfLine

/-- The places that come into question for the second call, in the order in which they are tried. -/
def tailStops (window : Nat) (cursor : Cursor) : List Cursor :=
  (restOfLine.stops cursor).flatMap (lazyUpToStops furtherLine.stops window)

theorem stops_restOfLine_end (hget : text[start]? = none) :
    restOfLine.stops (inText text start) = [inText text start] :=
  stops_run_of_ends fun _ hc => nomatch hget.symm.trans hc

theorem stops_restOfLine_lineEnd (hget : text[start]? = some '\n') :
    restOfLine.stops (inText text start) = [inText text start] := by
  refine stops_run_of_ends fun c hc => ?_
  obtain rfl := Option.some.inj (hget.symm.trans hc)
  rfl

theorem stops_restOfLine_char (hget : text[start]? = some c) (hc : c ≠ '\n') :
    restOfLine.stops (inText text start) =
      restOfLine.stops (inText text (start + 1)) ++ [inText text start] :=
  stops_run_of_holds hget (by simp [CharClass.holds, hc])

theorem stops_furtherLine_lineEnd (hget : text[start]? = some '\n') :
    furtherLine.stops (inText text start) = restOfLine.stops (inText text (start + 1)) := by
  have hstops : (literal "\n").stops (inText text start) = [inText text (start + 1)] :=
    stops_text_singleton hget
  rw [furtherLine, stops, hstops, List.flatMap_singleton]

theorem stops_furtherLine_of_ne (hget : text[start]? ≠ some '\n') :
    furtherLine.stops (inText text start) = [] := by
  have hstops : (literal "\n").stops (inText text start) = [] := stops_text_of_ne hget
  rw [furtherLine, stops, hstops, List.flatMap_nil]

/-- No further lines begin where a line does not end. -/
theorem lazyUpToStops_of_ne (window : Nat) (hget : text[start]? ≠ some '\n') :
    lazyUpToStops furtherLine.stops window (inText text start) = [inText text start] := by
  cases window with
  | zero => rw [lazyUpToStops]
  | succ window => rw [lazyUpToStops, stops_furtherLine_of_ne hget, List.flatMap_nil]

theorem tailStops_end (hget : text[start]? = none) :
    tailStops window (inText text start) = [inText text start] := by
  have hne : text[start]? ≠ some '\n' := by
    rw [hget]
    exact nofun
  rw [tailStops, stops_restOfLine_end hget, List.flatMap_singleton, lazyUpToStops_of_ne window hne]

/-- What comes later on a line is tried before what comes here. -/
theorem tailStops_char (hget : text[start]? = some c) (hc : c ≠ '\n') :
    tailStops window (inText text start) =
      tailStops window (inText text (start + 1)) ++ [inText text start] := by
  have hne : text[start]? ≠ some '\n' := by
    rw [hget]
    exact fun hsame => hc (Option.some.inj hsame)
  rw [tailStops, stops_restOfLine_char hget hc, List.flatMap_append, List.flatMap_singleton,
    lazyUpToStops_of_ne window hne, tailStops]

theorem tailStops_lineEnd_zero (hget : text[start]? = some '\n') :
    tailStops 0 (inText text start) = [inText text start] := by
  rw [tailStops, stops_restOfLine_lineEnd hget, List.flatMap_singleton, lazyUpToStops]

theorem tailStops_lineEnd_succ (hget : text[start]? = some '\n') :
    tailStops (window + 1) (inText text start) =
      inText text start :: tailStops window (inText text (start + 1)) := by
  rw [tailStops, stops_restOfLine_lineEnd hget, List.flatMap_singleton, lazyUpToStops,
    stops_furtherLine_lineEnd hget, tailStops]

/-! ### The furthest call -/

/-- The last call after some place with at most `window` line ends before it. -/
structure Furthest (window : Nat) (text : List Char) (start second : Nat) : Prop where
  le : start ≤ second
  isCall : CallAt text second
  near : lineEnds text start second ≤ window
  last {later : Nat} : second < later → CallAt text later → window < lineEnds text start later

/-- All calls after some place are too far away. -/
def NoneNear (window : Nat) (text : List Char) (start : Nat) : Prop :=
  ∀ second ≥ start, CallAt text second → window < lineEnds text start second

theorem CallAt.lt_of_ne (h : CallAt text second) (hle : start ≤ second)
    (hget : text[start]? ≠ some '.') :
    start < second := by
  refine Nat.lt_of_le_of_ne hle ?_
  rintro rfl
  exact hget (h.getElem? (show 0 < publishCall.length by decide))

/-- What lies on the same line is as near from the next place. -/
theorem lineEnds_char (hget : text[start]? = some c) (hc : c ≠ '\n') (hlt : start < stop) :
    lineEnds text start stop = lineEnds text (start + 1) stop := by
  rw [lineEnds_of_lt hget hlt, if_neg (by simpa using hc), Nat.add_zero]

theorem lineEnds_lineEnd (hget : text[start]? = some '\n') (hlt : start < stop) :
    lineEnds text start stop = lineEnds text (start + 1) stop + 1 := by
  rw [lineEnds_of_lt hget hlt, if_pos (by decide)]

theorem Furthest.char (h : Furthest window text (start + 1) second) (hget : text[start]? = some c)
    (hc : c ≠ '\n') : Furthest window text start second where
  le := Nat.le_of_succ_le h.le
  isCall := h.isCall
  near := by
    rw [lineEnds_char hget hc h.le]
    exact h.near
  last {later} hlater hcall := by
    rw [lineEnds_char hget hc (Nat.lt_trans h.le hlater)]
    exact h.last hlater hcall

theorem Furthest.lineEnd (h : Furthest window text (start + 1) second)
    (hget : text[start]? = some '\n') :
    Furthest (window + 1) text start second where
  le := Nat.le_of_succ_le h.le
  isCall := h.isCall
  near := by
    rw [lineEnds_lineEnd hget h.le]
    exact Nat.succ_le_succ h.near
  last {later} hlater hcall := by
    rw [lineEnds_lineEnd hget (Nat.lt_trans h.le hlater)]
    exact Nat.succ_lt_succ (h.last hlater hcall)

theorem skip?_of_ne_dot (hget : text[start]? ≠ some '.') :
    (inText text start).skip? publishCall = none :=
  skip?_inText_of_not_isPrefix fun hcall =>
    hget (CallAt.getElem? hcall (show 0 < publishCall.length by decide))

/-- The first place from which a call can follow is that of the furthest one. -/
theorem findSome?_tailStops (window : Nat) (text : List Char) (start : Nat) :
    (∃ second, Furthest window text start second ∧
      (tailStops window (inText text start)).findSome? (Cursor.skip? publishCall) =
        some (inText text (second + publishCall.length))) ∨
    (NoneNear window text start ∧
      (tailStops window (inText text start)).findSome? (Cursor.skip? publishCall) = none) := by
  -- The next place is tried before this one, or after it at the end of a line, where no call
  -- begins.
  induction hmeasure : text.length - start using Nat.strongRecOn generalizing start window with
  | ind remaining ih =>
    cases hget : text[start]? with
    | none =>
      right
      have hne : text[start]? ≠ some '.' := by
        rw [hget]
        exact nofun
      rw [tailStops_end hget, List.findSome?_singleton, skip?_of_ne_dot hne]
      refine ⟨fun second hsecond hcall => ?_, rfl⟩
      have hlast := List.getElem?_eq_none_iff.mp hget
      have hlength := hcall.add_length_le
      have hpos : 0 < publishCall.length := by decide
      omega
    | some c =>
      have hlt : start < text.length := (List.getElem?_eq_some_iff.mp hget).1
      have hnext := fun window => ih (text.length - (start + 1)) (by omega) window (start + 1) rfl
      by_cases hc : c = '\n'
      · subst hc
        have hne : text[start]? ≠ some '.' := by
          rw [hget]
          decide
        cases window with
        | zero =>
          right
          rw [tailStops_lineEnd_zero hget, List.findSome?_singleton, skip?_of_ne_dot hne]
          refine ⟨fun second hsecond hcall => ?_, rfl⟩
          rw [lineEnds_lineEnd hget (hcall.lt_of_ne hsecond hne)]
          exact Nat.succ_pos _
        | succ window =>
          rw [tailStops_lineEnd_succ hget, List.findSome?_cons, skip?_of_ne_dot hne]
          dsimp only
          rcases hnext window with ⟨second, hfurthest, hfound⟩ | ⟨hnone, hfound⟩
          · exact Or.inl ⟨second, hfurthest.lineEnd hget, hfound⟩
          · refine Or.inr ⟨fun second hsecond hcall => ?_, hfound⟩
            have hbehind := hcall.lt_of_ne hsecond hne
            rw [lineEnds_lineEnd hget hbehind]
            exact Nat.succ_lt_succ (hnone second hbehind hcall)
      · rw [tailStops_char hget hc, List.findSome?_append, List.findSome?_singleton]
        rcases hnext window with ⟨second, hfurthest, hfound⟩ | ⟨hnone, hfound⟩
        · rw [hfound, Option.some_or]
          exact Or.inl ⟨second, hfurthest.char hget hc, rfl⟩
        · have hlater : ∀ second > start, CallAt text second →
              window < lineEnds text start second := by
            intro second hsecond hcall
            rw [lineEnds_char hget hc hsecond]
            exact hnone second hsecond hcall
          rw [hfound, Option.none_or]
          by_cases hcall : CallAt text start
          · rw [skip?_inText hcall]
            refine Or.inl ⟨start, ⟨Nat.le_refl start, hcall, ?_, fun hlt => hlater _ hlt⟩, rfl⟩
            rw [lineEnds_self]
            exact Nat.zero_le window
          · rw [skip?_inText_of_not_isPrefix hcall]
            refine Or.inr ⟨fun second hsecond hsecondCall => ?_, rfl⟩
            refine hlater second (Nat.lt_of_le_of_ne hsecond ?_) hsecondCall
            rintro rfl
            exact hcall hsecondCall

/-! ### Matches -/

theorem matchEnd?_eventCascade (window : Nat) (text : List Char) (first : Nat) :
    (eventCascade window).pattern.matchEnd? (inText text first) =
      ((inText text first).skip? publishCall).bind fun after =>
        (tailStops window after).findSome? (Cursor.skip? publishCall) := by
  have hlast : ∀ cursor, (literal ".publish(").search cursor some = cursor.skip? publishCall := by
    intro cursor
    rw [literal, search]
    exact Option.bind_fun_some _
  have hlines : ∀ cursor,
      search (.seq (.lazyUpTo window furtherLine) (literal ".publish(")) cursor some =
      (lazyUpToStops furtherLine.stops window cursor).findSome? (Cursor.skip? publishCall) := by
    intro cursor
    rw [search, search_eq, stops]
    simp only [hlast]
  have htail : ∀ after,
      search (.seq restOfLine (.seq (.lazyUpTo window furtherLine) (literal ".publish(")))
        after some =
        (tailStops window after).findSome? (Cursor.skip? publishCall) := by
    intro after
    rw [search, search_eq restOfLine, tailStops, findSome?_flatMap]
    simp only [hlines]
  calc (eventCascade window).pattern.matchEnd? (inText text first)
      = ((inText text first).skip? publishCall).bind fun after =>
          search (.seq restOfLine (.seq (.lazyUpTo window furtherLine) (literal ".publish(")))
            after some := rfl
    _ = _ := by simp only [htail]

/-- Behind a call, the furthest one is the last that is linked to it. -/
theorem Furthest.cascade (h : Furthest window text (first + publishCall.length) second)
    (hfirst : CallAt text first) : Cascade window text first (second + publishCall.length) := by
  have hpos : 0 < publishCall.length := by decide
  have hlt : first < second := by
    have hle := h.le
    omega
  refine ⟨second, ⟨hfirst, h.isCall, hlt, h.near⟩, ?_, rfl⟩
  intro later hlinked
  by_contra hnot
  have hfar := h.last (Nat.lt_of_not_le hnot) hlinked.secondCall
  exact absurd hlinked.near (Nat.not_le_of_lt hfar)

theorem Cascade.unique {other : Nat} (h : Cascade window text first stop)
    (hother : Cascade window text first other) : stop = other := by
  obtain ⟨second, hlinked, hlast, rfl⟩ := h
  obtain ⟨third, hlinkedOther, hlastOther, rfl⟩ := hother
  rw [Nat.le_antisymm (hlastOther second hlinked) (hlast third hlinkedOther)]

theorem Linked.not_noneNear (h : Linked window text first second) :
    ¬ NoneNear window text (first + publishCall.length) := by
  intro hnone
  have hfar := hnone second (h.firstCall.add_length_le_of_lt h.secondCall h.lt) h.secondCall
  exact absurd h.near (Nat.not_le_of_lt hfar)

/-- A match of the pattern for cascades is a cascade. -/
theorem endsBy_eventCascade (window : Nat) (text : List Char) :
    EndsBy (eventCascade window).pattern text (Cascade window text) where
  stop_iff {first} _ stop := by
    rw [matchEnd?_eventCascade]
    by_cases hcall : CallAt text first
    · rw [skip?_inText hcall, Option.bind_some]
      rcases findSome?_tailStops window text (first + publishCall.length) with
        ⟨second, hfurthest, hfound⟩ | ⟨hnone, hfound⟩
      · have hcascade := hfurthest.cascade hcall
        rw [hfound, Option.map_some, Option.some.injEq]
        constructor
        · rintro rfl
          exact hcascade
        · exact fun hstop => hcascade.unique hstop
      · rw [hfound, Option.map_none]
        refine iff_of_false nofun ?_
        rintro ⟨second, hlinked, -⟩
        exact hlinked.not_noneNear hnone
    · rw [skip?_inText_of_not_isPrefix hcall, Option.bind_none, Option.map_none]
      refine iff_of_false nofun ?_
      rintro ⟨second, hlinked, -⟩
      exact hcall hlinked.firstCall
  lt := by
    rintro first stop ⟨second, hlinked, -, rfl⟩
    exact Nat.lt_add_right publishCall.length hlinked.lt
  isPlace := by
    rintro first stop ⟨second, hlinked, -, rfl⟩
    exact Nat.le_of_add_right_le hlinked.firstCall.add_length_le

/-- Linked calls begin a cascade, and a cascade is found. -/
theorem exists_cascade (h : Linked window text first second) :
    ∃ stop, Cascade window text first stop := by
  rcases findSome?_tailStops window text (first + publishCall.length) with
    ⟨third, hfurthest, -⟩ | ⟨hnone, -⟩
  · exact ⟨_, hfurthest.cascade h.firstCall⟩
  · exact absurd hnone h.not_noneNear

theorem count_pos_iff (window : Nat) (content : String) :
    0 < (eventCascade window).count content ↔
      ∃ first second, Linked window content.toList first second := by
  have hfoundFrom := (endsBy_eventCascade window content.toList).matchesIn_eq_iff.mp
    (Eq.refl ((eventCascade window).pattern.matchesIn content))
  rw [count, find, Pattern.find, List.length_map, List.length_pos_iff, hfoundFrom.ne_nil_iff]
  constructor
  · rintro ⟨first, -, stop, second, hlinked, -⟩
    exact ⟨first, second, hlinked⟩
  · rintro ⟨first, second, hlinked⟩
    exact ⟨first, Nat.zero_le first, exists_cascade hlinked⟩

theorem Linked.mono {wider : Nat} (h : Linked window text first second) (hle : window ≤ wider) :
    Linked wider text first second :=
  ⟨h.firstCall, h.secondCall, h.lt, Nat.le_trans h.near hle⟩

/-- As long as repetitions can be counted, the matches for cascades are found one after the other:
each begins with the first call at or after the end of the match before that has another call near
enough behind it, and ends with the last such call. So there is a finding exactly if two calls are
near enough, and none is lost by looking further. -/
theorem cascades_of_window (hwindow : window ≤ maxWindow) :
    ∃ signature, eventCascade? window = .ok signature ∧ signature.name = "EVENT_CASCADE_RISK" ∧
      (∀ (content : String) (found : List Match), signature.pattern.matchesIn content = found ↔
        FoundFrom (Cascade window content.toList) content.toList 0 found) ∧
      (∀ content : String, 0 < signature.count content ↔
        ∃ first second, Linked window content.toList first second) ∧
      ∀ wider ≤ maxWindow, window ≤ wider → ∃ other, eventCascade? wider = .ok other ∧
        ∀ content, 0 < signature.count content → 0 < other.count content := by
  refine ⟨eventCascade window, if_pos hwindow, rfl, ?_, count_pos_iff window, ?_⟩
  · exact fun content found => (endsBy_eventCascade window content.toList).matchesIn_eq_iff
  · intro wider hwider hle
    refine ⟨eventCascade wider, if_pos hwider, fun content hfound => ?_⟩
    obtain ⟨first, second, hlinked⟩ := (count_pos_iff window content).mp hfound
    exact (count_pos_iff wider content).mpr ⟨first, second, hlinked.mono hle⟩

def fourCalls : String := "a.publish(1)\nb.publish(2); c.publish(3)\n\nd.publish(4)"

/-- With one line end allowed, the match passes over the second call and ends with the third, and
the fourth has no other to be linked to. -/
theorem cascades_of_fourCalls :
    1 ≤ maxWindow ∧ ∃ signature, eventCascade? 1 = .ok signature ∧
      signature.pattern.matchesIn fourCalls =
        [⟨1, ".publish(1)\nb.publish(2); c.publish(".toList⟩] ∧
      FoundFrom (Cascade 1 fourCalls.toList) fourCalls.toList 0
        [⟨1, ".publish(1)\nb.publish(2); c.publish(".toList⟩] ∧
      ∃ first second, Linked 1 fourCalls.toList first second := by
  have hwindow : 1 ≤ maxWindow := by decide
  have hfound : (eventCascade 1).pattern.matchesIn fourCalls =
      [⟨1, ".publish(1)\nb.publish(2); c.publish(".toList⟩] := by
    decide +kernel
  have hcount : 0 < (eventCascade 1).count fourCalls := by decide +kernel
  obtain ⟨signature, hsignature, -, hmatches, hpositive, -⟩ := cascades_of_window hwindow
  obtain rfl : eventCascade 1 = signature := Except.ok.inj ((if_pos hwindow).symm.trans hsignature)
  exact ⟨hwindow, eventCascade 1, hsignature, hfound, (hmatches fourCalls _).mp hfound,
    (hpositive fourCalls).mp hcount⟩

end RiskScan.Signature

import RiskScan.Text.CaseFold
import RiskScan.Text.Classes
import RiskScan.Text.Word
/-!
# Patterns

A pattern describes stretches of text. Where it allows several, the choices inside it are tried in a
fixed order, the whole of what follows being tried after each choice, and the first that works out
is the one that counts. A repetition of a character class tries its longest stretch first or its
shortest first, as it says.

`Pattern.search` finds the place where the first stretch ends: it is given what has to follow the
pattern as a continuation. `Pattern.matchesIn` lists the matches in a text from left to right; a
match begins at or after the end of the one before it.
-/

namespace RiskScan

open Text

inductive CharClass where
  | only (chars : List Char)
  | except (chars : List Char)
  | range (first last : Char)
  /-- A letter in either case. -/
  | letter (c : Char)
  | word
  | blank
  deriving DecidableEq, Repr

def CharClass.holds : CharClass → Char → Bool
  | .only chars, c => chars.contains c
  | .except chars, c => !chars.contains c
  | .range first last, c => first ≤ c && c ≤ last
  | .letter wanted, c => sameLetter wanted c
  | .word, c => isWord c
  | .blank, c => isBlank c

inductive Pattern where
  | one (cls : CharClass)
  | text (chars : List Char)
  | seq (first second : Pattern)
  | either (first second : Pattern)
  /-- As many characters of a class as possible first: at least `least`, at most `most`. -/
  | run (cls : CharClass) (least : Nat) (most : Option Nat)
  /-- As few characters of a class as possible first. -/
  | lazyRun (cls : CharClass)
  /-- As many rounds as possible first. Every round of the body takes at least one character. -/
  | many (body : Pattern)
  /-- As few rounds as possible first, and at most `most`. -/
  | lazyUpTo (most : Nat) (body : Pattern)
  /-- A word character on exactly one side. -/
  | wordBoundary
  /-- The body does not match here. -/
  | unless (body : Pattern)
  deriving DecidableEq, Repr

/-- A place in a text: how many characters lie before it, the last of these, and everything after
it. -/
structure Cursor where
  position : Nat
  before : Option Char
  rest : List Char
  deriving DecidableEq, Repr

namespace Cursor

/-- The place after some characters that have to come next. -/
def skip? : (chars : List Char) → Cursor → Option Cursor
  | [], cursor => some cursor
  | wanted :: chars, ⟨position, _, c :: rest⟩ =>
    if c = wanted then skip? chars ⟨position + 1, some c, rest⟩ else none
  | _ :: _, ⟨_, _, []⟩ => none

theorem skip?_eq_some_iff {chars : List Char} {cursor after : Cursor} :
    skip? chars cursor = some after ↔
      cursor.rest = chars ++ after.rest ∧ after.position = cursor.position + chars.length ∧
        after.before = (chars.getLast?.or cursor.before) := by
  induction chars generalizing cursor with
  | nil =>
    obtain ⟨position, before, rest⟩ := cursor
    obtain ⟨position', before', rest'⟩ := after
    simp only [skip?, Option.some.injEq, Cursor.mk.injEq, List.nil_append, List.length_nil,
      Nat.add_zero, List.getLast?_nil, Option.none_or]
    constructor
    · rintro ⟨rfl, rfl, rfl⟩
      exact ⟨rfl, rfl, rfl⟩
    · rintro ⟨rfl, rfl, rfl⟩
      exact ⟨rfl, rfl, rfl⟩
  | cons wanted chars ih =>
    obtain ⟨position, before, rest⟩ := cursor
    cases rest with
    | nil => simp [skip?]
    | cons c rest =>
      unfold skip?
      by_cases heq : c = wanted
      · subst heq
        rw [if_pos rfl, ih]
        have hlast : (c :: chars).getLast?.or before = chars.getLast?.or (some c) := by
          cases chars with
          | nil => rfl
          | cons d chars => simp [List.getLast?_cons]
        simp only [List.cons_append, List.cons.injEq, true_and, List.length_cons, hlast]
        rw [Nat.add_right_comm, Nat.add_assoc position]
      · simp [heq]

def atWordBoundary (cursor : Cursor) : Bool :=
  (cursor.before.map isWord).getD false != (cursor.rest.head?.map isWord).getD false

/-- The places reached by taking characters of a class, put before `stops`; the place furthest on
comes first. -/
def reach (cls : CharClass) : (limit : Option Nat) → (position : Nat) → (rest : List Char) →
    (stops : List Cursor) → List Cursor
  | some 0, _, _, stops => stops
  | _, _, [], stops => stops
  | limit, position, c :: rest, stops =>
    if cls.holds c then
      reach cls (limit.map (· - 1)) (position + 1) rest (⟨position + 1, some c, rest⟩ :: stops)
    else stops

/-- The places after a run of a class, the furthest first. -/
def runStops (cls : CharClass) (least : Nat) (most : Option Nat) (cursor : Cursor) : List Cursor :=
  let stops := reach cls most cursor.position cursor.rest [cursor]
  stops.take (stops.length - least)

end Cursor

/-- What has to follow: the end of the match from a given place, if it can be completed. -/
abbrev Continuation := Cursor → Option Cursor

/-- A stretch of a text that a pattern matches: where it begins, and its characters. -/
structure Match where
  start : Nat
  text : List Char
  deriving DecidableEq, Repr

namespace Pattern

/-- The places after a run of a class, the nearest first. -/
def searchLazyRun (cls : CharClass) (next : Continuation) :
    (position : Nat) → (before : Option Char) → (rest : List Char) → Option Cursor
  | position, before, [] => next ⟨position, before, []⟩
  | position, before, c :: rest =>
    match next ⟨position, before, c :: rest⟩ with
    | some stop => some stop
    | none => if cls.holds c then searchLazyRun cls next (position + 1) (some c) rest else none

/-- Rounds of a body, as many as possible first. There are no more of them than characters in
`room`. -/
def searchMany (body : Cursor → Continuation → Option Cursor) :
    (room : List Char) → Cursor → Continuation → Option Cursor
  | [], cursor, next => next cursor
  | _ :: room, cursor, next =>
    match body cursor fun after => searchMany body room after next with
    | some stop => some stop
    | none => next cursor

def searchLazyUpTo (body : Cursor → Continuation → Option Cursor) :
    (rounds : Nat) → Cursor → Continuation → Option Cursor
  | 0, cursor, next => next cursor
  | rounds + 1, cursor, next =>
    match next cursor with
    | some stop => some stop
    | none => body cursor fun after => searchLazyUpTo body rounds after next

/-- The end of the first way to match the pattern and what follows it. -/
def search : Pattern → Cursor → Continuation → Option Cursor
  | .one cls, ⟨position, _, c :: rest⟩, next =>
    if cls.holds c then next ⟨position + 1, some c, rest⟩ else none
  | .one _, ⟨_, _, []⟩, _ => none
  | .text chars, cursor, next => (cursor.skip? chars).bind next
  | .seq first second, cursor, next => first.search cursor fun after => second.search after next
  | .either first second, cursor, next =>
    match first.search cursor next with
    | some stop => some stop
    | none => second.search cursor next
  | .run cls least most, cursor, next => (cursor.runStops cls least most).findSome? next
  | .lazyRun cls, cursor, next => searchLazyRun cls next cursor.position cursor.before cursor.rest
  | .many body, cursor, next => searchMany body.search cursor.rest cursor next
  | .lazyUpTo most body, cursor, next => searchLazyUpTo body.search most cursor next
  | .wordBoundary, cursor, next => if cursor.atWordBoundary then next cursor else none
  | .unless body, cursor, next =>
    match body.search cursor some with
    | some _ => none
    | none => next cursor

def matchEnd? (pattern : Pattern) (cursor : Cursor) : Option Cursor :=
  pattern.search cursor some

/-- The matches at or after a place. After an empty match the search goes on one character later. -/
def findFrom (pattern : Pattern) :
    (position : Nat) → (before : Option Char) → (rest : List Char) → List Match
  | position, before, [] =>
    if (pattern.matchEnd? ⟨position, before, []⟩).isSome then [⟨position, []⟩] else []
  | position, before, c :: rest =>
    match pattern.matchEnd? ⟨position, before, c :: rest⟩ with
    | none => pattern.findFrom (position + 1) (some c) rest
    | some stop =>
      let count := stop.position - position
      if count = 0 then ⟨position, []⟩ :: pattern.findFrom (position + 1) (some c) rest
      else ⟨position, (c :: rest).take count⟩ ::
        pattern.findFrom stop.position stop.before ((c :: rest).drop count)
termination_by _ _ rest => rest.length
decreasing_by all_goals simp only [List.length_cons, List.length_drop]; omega

def matchesIn (pattern : Pattern) (content : String) : List Match :=
  pattern.findFrom 0 none content.toList

/-- The matching stretches of a text, from left to right. -/
def find (pattern : Pattern) (content : String) : List String :=
  (pattern.matchesIn content).map fun found => String.ofList found.text

def all : List Pattern → Pattern
  | [] => .text []
  | [pattern] => pattern
  | pattern :: patterns => .seq pattern (all patterns)

def anyOf : List Pattern → Pattern
  | [] => .one (.only [])
  | [pattern] => pattern
  | pattern :: patterns => .either pattern (anyOf patterns)

def literal (text : String) : Pattern := .text text.toList

def literalAnyCase (text : String) : Pattern :=
  all (text.toList.map fun c => .one (.letter c))

def optional (pattern : Pattern) : Pattern := .either pattern (.text [])

def blanks : Pattern := .run .blank 0 none
def someBlanks : Pattern := .run .blank 1 none
def wordChars : Pattern := .run .word 0 none
def someWordChars : Pattern := .run .word 1 none

def restOfLine : Pattern := .run (.except ['\n']) 0 none

end Pattern

end RiskScan

/-!
# Reading text files

A text file is read as UTF-8. A first octet promises a number of continuation octets and bounds the
first of them, which rules out overlong forms, surrogates and code points beyond the last plane.
Where a promise is broken, the octets read so far form one invalid stretch and reading goes on at
the octet that broke it. A lenient reader drops invalid stretches; a strict one stops at the first
and says where it lies.

Lines may end with a line feed, a carriage return or both together. Reading turns each of these into
a single line feed.
-/

namespace RiskScan.Text.Utf8

/-- What the first octet of a character promises. -/
structure Promise where
  /-- How many continuation octets follow. -/
  following : Nat
  /-- The least and the greatest octet that may come next. -/
  least : Nat
  greatest : Nat
  /-- The bits of the first octet. -/
  bits : Nat

/-- The promise of a first octet beyond ASCII, or `none` if no character starts with it. -/
def promise? (octet : Nat) : Option Promise :=
  if 0xc2 ≤ octet ∧ octet ≤ 0xdf then some ⟨1, 0x80, 0xbf, octet - 0xc0⟩
  else if octet = 0xe0 then some ⟨2, 0xa0, 0xbf, 0⟩
  else if octet = 0xed then some ⟨2, 0x80, 0x9f, 13⟩
  else if 0xe1 ≤ octet ∧ octet ≤ 0xef then some ⟨2, 0x80, 0xbf, octet - 0xe0⟩
  else if octet = 0xf0 then some ⟨3, 0x90, 0xbf, 0⟩
  else if 0xf1 ≤ octet ∧ octet ≤ 0xf3 then some ⟨3, 0x80, 0xbf, octet - 0xf0⟩
  else if octet = 0xf4 then some ⟨3, 0x80, 0x8f, 4⟩
  else none

inductive Fault where
  | invalidStart
  | invalidContinuation
  | unexpectedEnd
  deriving DecidableEq, Repr

def Fault.reason : Fault → String
  | .invalidStart => "invalid start byte"
  | .invalidContinuation => "invalid continuation byte"
  | .unexpectedEnd => "unexpected end of data"

/-- A character, or an invalid stretch of `length` octets. -/
inductive Piece where
  | char (c : Char)
  | invalid (fault : Fault) (length : Nat) (first : Nat)
  deriving DecidableEq, Repr

/-- Reads the continuation octets of a character of which `seen` octets have been read. -/
def continuation (first seen bits : Nat) :
    (following : Nat) → (least greatest : Nat) → (octets : List Nat) → Piece × List Nat
  | 0, _, _, octets => (.char (Char.ofNat bits), octets)
  | _ + 1, _, _, [] => (.invalid .unexpectedEnd seen first, [])
  | following + 1, least, greatest, octet :: octets =>
    if least ≤ octet ∧ octet ≤ greatest then
      continuation first (seen + 1) (bits * 64 + (octet - 0x80)) following 0x80 0xbf octets
    else (.invalid .invalidContinuation seen first, octet :: octets)

theorem length_continuation_le (first seen bits following least greatest : Nat)
    (octets : List Nat) :
    (continuation first seen bits following least greatest octets).2.length ≤ octets.length := by
  fun_induction continuation first seen bits following least greatest octets with
  | case1 => simp
  | case2 => simp
  | case3 => simp only [List.length_cons]; omega
  | case4 => simp

def pieces : List Nat → List Piece
  | [] => []
  | octet :: octets =>
    if octet < 0x80 then .char (Char.ofNat octet) :: pieces octets
    else
      match promise? octet with
      | none => .invalid .invalidStart 1 octet :: pieces octets
      | some promise =>
        let step := continuation octet 1 promise.bits promise.following promise.least
          promise.greatest octets
        step.1 :: pieces step.2
termination_by octets => octets.length
decreasing_by
  · simp
  · simp
  · exact Nat.lt_succ_of_le (length_continuation_le ..)

def Piece.char? : Piece → Option Char
  | .char c => some c
  | .invalid .. => none

def decodeLenient (octets : List Nat) : List Char :=
  (pieces octets).filterMap Piece.char?

/-- Where and why a sequence of octets is no text. -/
structure DecodeError where
  position : Nat
  length : Nat
  first : Nat
  fault : Fault
  deriving DecidableEq, Repr

/-- The characters of some pieces that begin at `position`, or the first invalid stretch. -/
def charsOf : (position : Nat) → List Piece → Except DecodeError (List Char)
  | _, [] => .ok []
  | position, .char c :: rest => do return c :: (← charsOf (position + c.utf8Size) rest)
  | position, .invalid fault length first :: _ => .error ⟨position, length, first, fault⟩

def decode (octets : List Nat) : Except DecodeError (List Char) :=
  charsOf 0 (pieces octets)

end RiskScan.Text.Utf8

namespace RiskScan.Text

def unifyNewlines : List Char → List Char
  | '\r' :: '\n' :: rest => '\n' :: unifyNewlines rest
  | '\r' :: rest => '\n' :: unifyNewlines rest
  | c :: rest => c :: unifyNewlines rest
  | [] => []

end RiskScan.Text

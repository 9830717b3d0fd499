import RiskScan.Text.Classes
/-!
# Reading numbers

Numbers are read from text in the digits of any script, with white space around them and one sign in
front. A single underscore may stand between two digits. Integers have digits only; floats may have
a point, an exponent, or be one of the words for the values that are no finite numbers.
-/

namespace RiskScan.Decimal

open RiskScan.Text

/-- A text of plain ASCII digits: every script's digits become ASCII, other characters stay. -/
def asciiDigits (text : List Char) : List Char :=
  text.map fun c =>
    match digitValue? c with
    | some value => Nat.digitChar value
    | none => c

/-- Removes underscores, each of which has to stand between two digits. -/
def dropUnderscores? : (afterDigit : Bool) → List Char → Option (List Char)
  | _, [] => some []
  | afterDigit, '_' :: rest =>
    if afterDigit && (rest.head?.map Char.isDigit).getD false then dropUnderscores? false rest
    else none
  | _, c :: rest => (dropUnderscores? c.isDigit rest).map (c :: ·)

/-- Splits a sign off the front: whether it is negative, and the rest. -/
def takeSign : List Char → Bool × List Char
  | '-' :: rest => (true, rest)
  | '+' :: rest => (false, rest)
  | rest => (false, rest)

def natOfDigits (digits : List Char) : Nat :=
  digits.foldl (fun value c => value * 10 + (c.toNat - '0'.toNat)) 0

def maxIntegerDigits : Nat := 4300

inductive IntegerReading where
  | integer (value : Int)
  | tooLong (digits : Nat)
  | malformed
  deriving DecidableEq, Repr

def readInteger (text : List Char) : IntegerReading :=
  let (negative, body) := takeSign (asciiDigits (trim isWhiteSpace text))
  match dropUnderscores? false body with
  | none => .malformed
  | some digits =>
    if digits.isEmpty || !digits.all Char.isDigit then .malformed
    else if maxIntegerDigits < digits.length then .tooLong digits.length
    else .integer (if negative then -(natOfDigits digits : Int) else natOfDigits digits)

/-- The float nearest to `digits · 10 ^ exponent`. Exponents far outside the range of floats are
decided without computing the power. -/
def nearestFloat (digits : Nat) (exponent : Int) : Float :=
  let size : Int := (Nat.toDigits 10 digits).length
  if digits = 0 then 0.0
  else if 400 < size + exponent then 1.0 / 0.0
  else if size + exponent < -400 then 0.0
  else if 0 ≤ exponent then Float.ofScientific (digits * Nat.pow 10 exponent.toNat) false 0
  else Float.ofScientific digits true (-exponent).toNat

def lowerCase (text : List Char) : List Char :=
  text.map Char.toLower

/-- The exponent part of a float, absent or complete. -/
def readExponent? : List Char → Option Int
  | [] => some 0
  | e :: rest =>
    if e == 'e' || e == 'E' then
      let (negative, digits) := takeSign rest
      if digits.isEmpty || !digits.all Char.isDigit then none
      else some (if negative then -(natOfDigits digits : Int) else natOfDigits digits)
    else none

def readDecimal? (body : List Char) : Option Float :=
  let whole := body.takeWhile Char.isDigit
  let afterWhole := body.dropWhile Char.isDigit
  let (fraction, tail) :=
    match afterWhole with
    | '.' :: rest => (rest.takeWhile Char.isDigit, rest.dropWhile Char.isDigit)
    | rest => ([], rest)
  if whole.isEmpty && fraction.isEmpty then none
  else (readExponent? tail).map fun exponent =>
    nearestFloat (natOfDigits (whole ++ fraction)) (exponent - fraction.length)

def readFloat? (text : List Char) : Option Float :=
  (dropUnderscores? false (asciiDigits (trim isWhiteSpace text))).bind fun chars =>
    let (negative, body) := takeSign chars
    let magnitude :=
      let word := lowerCase body
      if word == "nan".toList then some (0.0 / 0.0)
      else if word == "inf".toList || word == "infinity".toList then some (1.0 / 0.0)
      else readDecimal? body
    magnitude.map fun x => if negative then -x else x

end RiskScan.Decimal

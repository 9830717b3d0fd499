import RiskScan.Yaml.Tag
import RiskScan.Yaml.Token.Names
/-!
# The values of scalars

The text of a scalar is turned into a value of the type that its tag says. The form of the text
guarantees that this succeeds, up to dates that do not exist; where the tag is written out, the text
may be anything.
-/

namespace RiskScan.Yaml.ScalarText

open RiskScan.Decimal RiskScan.Text

def dropUnderscores (text : List Char) : List Char :=
  text.filter (· != '_')

/-- The letter that may follow a leading zero in numbers of a base. -/
def baseLetter? (base : Nat) : Option Char :=
  if base = 2 then some 'b' else if base = 8 then some 'o' else if base = 16 then some 'x' else none

def dropBaseMark (base : Nat) : List Char → List Char
  | '0' :: letter :: rest =>
    if baseLetter? base = some letter.toLower then rest else '0' :: letter :: rest
  | text => text

/-- The value of a digit in bases up to sixteen. -/
def digitIn? (base : Nat) (c : Char) : Option Nat :=
  (Read.hexValue? c).filter (· < base)

def natIn? (base : Nat) : (value : Nat) → List Char → Option Nat
  | value, [] => some value
  | value, c :: rest => (digitIn? base c).bind fun digit => natIn? base (value * base + digit) rest

def intIn (base : Nat) (text : List Char) : Except Error Int :=
  let (negative, body) := takeSign (asciiDigits (trim isWhiteSpace text))
  let digits := dropBaseMark base body
  match if digits.isEmpty then none else natIn? base 0 digits with
  | some value => .ok (if negative then -(value : Int) else value)
  | none => .error (.integer base (String.ofList text))

def decimalInt (text : List Char) : Except Error Int :=
  (Value.text (String.ofList text)).toInt.mapError .number

def decimalFloat (text : List Char) : Except Error Float :=
  (Value.text (String.ofList text)).toFloat.mapError .number

/-- The integer that some digits in base sixty spell, the first one the most significant. -/
def sixtiethInt (digits : List Int) : Int :=
  digits.foldl (fun value digit => value * 60 + digit) 0

/-- The float that some digits in base sixty spell, the least significant one first. -/
def sixtiethFloat : (digits : List Float) → (weight : Nat) → (value : Float) → Float
  | [], _, value => value
  | digit :: digits, weight, value =>
    sixtiethFloat digits (weight * 60) (value + digit * Float.ofNat weight)

def unsignedInt : List Char → Except Error Int
  | [] => .error .emptyNumber
  | ['0'] => .ok 0
  | '0' :: 'b' :: digits => intIn 2 digits
  | '0' :: 'x' :: digits => intIn 16 digits
  | '0' :: digits => intIn 8 ('0' :: digits)
  | text =>
    if text.contains ':' then return sixtiethInt (← (Form.colonParts text).mapM decimalInt)
    else decimalInt text

def int (text : List Char) : Except Error Int := do
  let (negative, body) := takeSign (dropUnderscores text)
  let magnitude ← unsignedInt body
  return if negative then -magnitude else magnitude

def unsignedFloat (text : List Char) : Except Error Float :=
  if text = ".inf".toList then .ok (1.0 / 0.0)
  else if text = ".nan".toList then .ok (0.0 / 0.0)
  else if text.contains ':' then do
    let digits ← (Form.colonParts text).mapM decimalFloat
    return sixtiethFloat digits.reverse 1 0.0
  else decimalFloat text

def float (text : List Char) : Except Error Float := do
  let chars := lowerCase (dropUnderscores text)
  if chars.isEmpty then throw .emptyNumber
  let (negative, body) := takeSign chars
  let magnitude ← unsignedFloat body
  return if negative then -magnitude else magnitude

def bool (text : List Char) : Except Error Bool :=
  let word := lowerCase text
  if ["yes", "true", "on"].contains (String.ofList word) then .ok true
  else if ["no", "false", "off"].contains (String.ofList word) then .ok false
  else .error (.notBool (String.ofList word))

def checked (check : Except CalendarError Unit) : Except Error Unit :=
  check.mapError .calendar

def timestamp (text : List Char) : Except Error Scalar :=
  match Form.timestamp? 1 text with
  | none => .error .notTimestamp
  | some (.date date) => do
    checked date.check
    return .date date
  | some (.moment moment) => do
    checked ((moment.offset.map checkOffset).getD (.ok ()))
    checked moment.date.check
    checked moment.time.check
    return .moment moment

end RiskScan.Yaml.ScalarText

namespace RiskScan.Yaml

def scalarValue (tag : Tag) (text : String) : Except Error Scalar :=
  match tag with
  | .null => .ok .null
  | .bool => return .bool (← ScalarText.bool text.toList)
  | .int => return .int (← ScalarText.int text.toList)
  | .float => return .float (← ScalarText.float text.toList)
  | .timestamp => ScalarText.timestamp text.toList
  | .text => .ok (.text text)
  | .sequence | .mapping | .merge | .default | .unknown => .error .malformed

end RiskScan.Yaml

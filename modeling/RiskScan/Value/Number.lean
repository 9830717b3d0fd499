import RiskScan.Decimal.Reading
import RiskScan.Fault
import RiskScan.Value.Shown
/-!
# Numbers and texts from values

A setting that is a number accepts numbers of either kind, truth values as one and zero, and texts
that spell a number of the wanted kind. A float becomes an integer by dropping its fraction. A
setting that is a text accepts every value whose text can be written.
-/

namespace RiskScan

open RiskScan.Decimal RiskScan.Text

inductive NumberError where
  | malformedInteger (text : String)
  | tooManyDigits (digits : Nat)
  | nanAsInteger
  | infinityAsInteger
  | notInteger (kind : String)
  | malformedFloat (text : String)
  | integerTooLarge
  | notFloat (kind : String)
  /-- An integer has more digits than are written. -/
  | integerTooLong
  deriving DecidableEq, Repr

namespace NumberError

def kind : NumberError → FaultKind
  | .malformedInteger _ | .tooManyDigits _ | .nanAsInteger | .malformedFloat _
  | .integerTooLong => .value
  | .infinityAsInteger | .integerTooLarge => .overflow
  | .notInteger _ | .notFloat _ => .type

def message : NumberError → String
  | .malformedInteger text => "invalid literal for int() with base 10: " ++ quoted text
  | .tooManyDigits digits =>
    "Exceeds the limit (" ++ toString maxIntegerDigits ++
      " digits) for integer string conversion: value has " ++ toString digits ++
      " digits; use sys.set_int_max_str_digits() to increase the limit"
  | .nanAsInteger => "cannot convert float NaN to integer"
  | .infinityAsInteger => "cannot convert float infinity to integer"
  | .notInteger kind =>
    "int() argument must be a string, a bytes-like object or a real number, not '" ++ kind ++ "'"
  | .malformedFloat text => "could not convert string to float: " ++ quoted text
  | .integerTooLarge => "int too large to convert to float"
  | .notFloat kind => "float() argument must be a string or a real number, not '" ++ kind ++ "'"
  | .integerTooLong =>
    "Exceeds the limit (" ++ toString maxIntegerDigits ++
      " digits) for integer string conversion; use sys.set_int_max_str_digits() to increase the limit"

def fault (error : NumberError) : Fault :=
  ⟨error.kind, error.message⟩

end NumberError

def wholePart (x : Float) : Except NumberError Int :=
  match Binary.ofFloat x with
  | .nan => .error .nanAsInteger
  | .infinite _ => .error .infinityAsInteger
  | .finite negative significand exponent =>
    let whole : Int := scaleDown significand exponent
    .ok (if negative then -whole else whole)

def floatOfInt (value : Int) : Except NumberError Float :=
  let x := Float.ofInt value
  if x.isInf then .error .integerTooLarge else .ok x

namespace Value

def toInt : Value → Except NumberError Int
  | .scalar (.bool value) => .ok (if value then 1 else 0)
  | .scalar (.int value) => .ok value
  | .scalar (.float value) => wholePart value
  | .scalar (.text value) =>
    match readInteger value.toList with
    | .integer number => .ok number
    | .tooLong digits => .error (.tooManyDigits digits)
    | .malformed => .error (.malformedInteger value)
  | value => .error (.notInteger value.qualifiedKind)

def toFloat : Value → Except NumberError Float
  | .scalar (.bool value) => .ok (if value then 1.0 else 0.0)
  | .scalar (.int value) => floatOfInt value
  | .scalar (.float value) => .ok value
  | .scalar (.text value) =>
    match readFloat? value.toList with
    | some x => .ok x
    | none => .error (.malformedFloat value)
  | value => .error (.notFloat value.qualifiedKind)

def toText (value : Value) : Except NumberError String :=
  if value.hasText then .ok value.plain else .error .integerTooLong

@[simp]
theorem toText_text (text : String) : (Value.text text).toText = .ok text := rfl

theorem eq_plain_of_toText {value : Value} {text : String} (h : value.toText = .ok text) :
    text = value.plain := by
  unfold toText at h
  split at h
  · exact (Except.ok.inj h).symm
  · cases h

end Value

end RiskScan

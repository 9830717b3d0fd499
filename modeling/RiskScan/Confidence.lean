import RiskScan.Decimal.Fixed
import RiskScan.Value.Number
/-!
# Confidence

How certain a finding is, from 0 to 1. A number outside this interval is moved to its nearer end,
also after an addition or a subtraction, so no sequence of adjustments leaves it. Negative zero lies
in the interval and keeps its sign; a value that is no number is refused.
-/

namespace RiskScan

structure Confidence where
  value : Float
  nonneg : (0.0 : Float) ≤ value
  le_one : value ≤ (1.0 : Float)
  deriving DecidableEq

inductive ConfidenceError where
  | notNumber
  | number (error : NumberError)
  deriving DecidableEq, Repr

def ConfidenceError.fault : ConfidenceError → Fault
  | .notNumber => ⟨.value, "Confidence cannot be NaN"⟩
  | .number error => error.fault

namespace Confidence

def zero : Confidence := ⟨0.0, by decide, by decide⟩

def one : Confidence := ⟨1.0, by decide, by decide⟩

instance : Inhabited Confidence := ⟨zero⟩

def ofFloat (x : Float) : Except ConfidenceError Confidence :=
  if h : (0.0 : Float) ≤ x ∧ x ≤ (1.0 : Float) then .ok ⟨x, h.1, h.2⟩
  else if x.isNaN then .error .notNumber
  else if x < 0.0 then .ok zero
  else .ok one

/-- What lies in the interval already stays as it is. -/
theorem ofFloat_value (confidence : Confidence) : ofFloat confidence.value = .ok confidence := by
  simp [ofFloat, confidence.nonneg, confidence.le_one]

/-- The float of a value that takes part in confidence arithmetic. -/
def operand (value : Value) : Except ConfidenceError Float :=
  value.toFloat.mapError .number

def ofValue (value : Value) : Except ConfidenceError Confidence :=
  operand value >>= ofFloat

def add (confidence : Confidence) (value : Value) : Except ConfidenceError Confidence := do
  ofFloat (confidence.value + (← operand value))

def sub (confidence : Confidence) (value : Value) : Except ConfidenceError Confidence := do
  ofFloat (confidence.value - (← operand value))

def subFrom (value : Value) (confidence : Confidence) : Except ConfidenceError Confidence := do
  ofFloat ((← operand value) - confidence.value)

def percent (confidence : Confidence) : String :=
  Decimal.fixed 1 (confidence.value * 100.0) ++ "%"

def shown (confidence : Confidence) : String :=
  "Confidence(" ++ valueFloats.write confidence.value ++ ")"

end Confidence

end RiskScan

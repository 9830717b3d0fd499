import RiskScan.Text.CaseFold
import RiskScan.Text.Classes
import RiskScan.Value.Number
/-!
# Severity

Five grades, from a remark to a critical risk. Their weights are consecutive numbers, so that grades
can be compared, and a grade can be raised by adding to its weight without leaving the scale.
-/

namespace RiskScan

inductive Severity where
  | info
  | low
  | medium
  | high
  | critical
  deriving DecidableEq, Repr, Inhabited

inductive SeverityError where
  /-- No grade has this label; the value is kept as messages show it. -/
  | unknown (shown : String)
  /-- The value has no text. -/
  | text (error : NumberError)
  deriving DecidableEq, Repr

def SeverityError.message : SeverityError → String
  | .unknown shown => "Unknown severity: " ++ shown
  | .text error => error.message

def SeverityError.fault (error : SeverityError) : Fault :=
  ⟨.value, error.message⟩

namespace Severity

def all : List Severity :=
  [.critical, .high, .medium, .low, .info]

def label : Severity → String
  | .info => "INFO"
  | .low => "LOW"
  | .medium => "MEDIUM"
  | .high => "HIGH"
  | .critical => "CRITICAL"

def weight : Severity → Nat
  | .info => 0
  | .low => 1
  | .medium => 2
  | .high => 3
  | .critical => 4

def maxWeight : Nat := critical.weight

theorem weight_le (severity : Severity) : severity.weight ≤ maxWeight := by
  cases severity <;> decide

/-- The grade of a weight; weights beyond the scale count as its ends. -/
def ofWeight (weight : Int) : Severity :=
  if weight ≤ 0 then .info
  else if weight = 1 then .low
  else if weight = 2 then .medium
  else if weight = 3 then .high
  else .critical

@[simp]
theorem ofWeight_weight (severity : Severity) : ofWeight severity.weight = severity := by
  cases severity <;> rfl

theorem weight_ofWeight (weight : Nat) : (ofWeight weight).weight = min weight maxWeight := by
  match weight with
  | 0 | 1 | 2 | 3 => rfl
  | rest + 4 =>
    have : ofWeight ((rest + 4 : Nat) : Int) = critical := by
      unfold ofWeight
      rw [if_neg, if_neg, if_neg, if_neg] <;> omega
    rw [this]
    simp only [maxWeight, Severity.weight]
    omega

/-- The grade with a label, in any case and with blanks around it. -/
def ofLabel? (text : String) : Option Severity :=
  let label := (Text.strip text.toList).map Text.capital
  all.find? fun severity => severity.label.toList == label

@[simp]
theorem ofLabel?_label (severity : Severity) : ofLabel? severity.label = some severity := by
  cases severity <;> decide +kernel

/-- The grade that a value names by its plain text. -/
def parse (value : Value) : Except SeverityError Severity :=
  match value.toText with
  | .error error => .error (.text error)
  | .ok text =>
    match ofLabel? text with
    | some severity => .ok severity
    | none => .error (.unknown value.shown)

@[simp]
theorem parse_label (severity : Severity) : parse (.text severity.label) = .ok severity := by
  rw [parse, Value.toText_text]
  dsimp only
  rw [ofLabel?_label]

/-- The grade of a finding whose strongest dependency has a given weight: half of that weight,
rounded down, is added to its own. -/
def raised (base : Severity) (dependencyWeight : Nat) : Severity :=
  ofWeight (base.weight + dependencyWeight / 2 : Nat)

end Severity

end RiskScan

import RiskScan.Proofs.Confidence.Classes
import RiskScan.Proofs.Config.Ranges
/-!
# Saturation

A confidence is adjusted by values of any kind, and what comes of it is the nearest number in the
unit interval. Only a value that is no number is refused. Since a confidence is finite, this is
decided by the value alone, and an infinite value leads to an end of the interval whatever the
confidence was.
-/

namespace RiskScan

open Float.Model (UnpackedFloat)
open Float.Model.UnpackedFloat (Sign)

namespace Confidence

theorem isFinite_value (confidence : Confidence) : confidence.value.isFinite = true :=
  isFinite_of_mem confidence.nonneg confidence.le_one

theorem isNaN_value (confidence : Confidence) : confidence.value.isNaN = false := by
  by_contra hnan
  exact not_le_of_isNaN (eq_true_of_ne_false hnan) 1.0 confidence.le_one

/-! ### From floats -/

variable {x : Float}

theorem ofFloat_of_isNaN (h : x.isNaN = true) : ofFloat x = .error .notNumber := by
  unfold ofFloat
  rw [dif_neg fun hmem => not_le_of_isNaN h 1.0 hmem.2, if_pos h]

/-- A number becomes the nearest one in the unit interval. -/
theorem exists_ofFloat_eq (h : x.isNaN = false) :
    ∃ confidence, ofFloat x = .ok confidence ∧ confidence.value = Config.clampFloor x := by
  unfold ofFloat
  by_cases hmem : 0.0 ≤ x ∧ x ≤ 1.0
  · rw [dif_pos hmem]
    exact ⟨_, rfl, (Config.clampFloor_of_le hmem.1 hmem.2).symm⟩
  · rw [dif_neg hmem, if_neg (ne_true_of_eq_false h)]
    unfold Config.clampFloor
    by_cases hlow : x < 0.0
    · rw [if_pos hlow, if_pos hlow]
      exact ⟨_, rfl, rfl⟩
    · have hhigh : 1.0 < x := by
        by_contra hle
        exact hmem ⟨(not_lt_iff_le h (by decide)).mp hlow, (not_lt_iff_le (by decide) h).mp hle⟩
      rw [if_neg hlow, if_neg hlow]
      exact ⟨_, rfl, (if_pos hhigh).symm⟩

/-- The end of the unit interval on one side. -/
def endTowards : Sign → Confidence
  | .positive => one
  | .negative => zero

theorem ofFloat_of_infinity {sign : Sign} (h : x.toModel.unpack = .infinity sign) :
    ofFloat x = .ok (endTowards sign) := by
  have hnumber : x.isNaN = false := by
    change x.toModel.unpack.isNaN = false
    rw [h]
    rfl
  have houtside : ¬ (0.0 ≤ x ∧ x ≤ 1.0) := by
    intro hmem
    have hfinite : x.toModel.unpack.isFinite = true := isFinite_of_mem hmem.1 hmem.2
    rw [h] at hfinite
    cases hfinite
  unfold ofFloat
  rw [dif_neg houtside, if_neg (ne_true_of_eq_false hnumber)]
  cases sign with
  | positive => exact if_neg (not_lt_of_lt (pos_of_infinity h))
  | negative => exact if_pos (neg_of_infinity h)

/-! ### Adjustments -/

/-- What can be done with a confidence and a value. -/
inductive Adjustment where
  /-- The value takes the place of the confidence. -/
  | assign (value : Value)
  | add (value : Value)
  | sub (value : Value)
  /-- The confidence is taken away from the value. -/
  | subFrom (value : Value)

namespace Adjustment

def value : Adjustment → Value
  | assign value | add value | sub value | subFrom value => value

def perform (confidence : Confidence) : Adjustment → Except ConfidenceError Confidence
  | assign value => ofValue value
  | add value => confidence.add value
  | sub value => confidence.sub value
  | subFrom value => Confidence.subFrom value confidence

/-- The float that an adjustment comes to, before it is moved into the unit interval. -/
def raw (confidence : Confidence) (x : Float) : Adjustment → Float
  | assign _ => x
  | add _ => confidence.value + x
  | sub _ => confidence.value - x
  | subFrom _ => x - confidence.value

/-- The side on which an adjustment by an infinite value comes to lie. -/
def side (sign : Sign) : Adjustment → Sign
  | sub _ => -sign
  | assign _ | add _ | subFrom _ => sign

/-- The end of the unit interval to which an infinite value leads. -/
def limit (x : Float) : Adjustment → Confidence
  | sub _ => if 0.0 < x then zero else one
  | assign _ | add _ | subFrom _ => if 0.0 < x then one else zero

variable {adjustment : Adjustment} {confidence : Confidence} {x : Float}

theorem perform_eq (adjustment : Adjustment) (confidence : Confidence) :
    adjustment.perform confidence =
      (operand adjustment.value >>= fun x => ofFloat (adjustment.raw confidence x)) := by
  cases adjustment <;> rfl

theorem isNaN_raw (adjustment : Adjustment) (confidence : Confidence) (x : Float) :
    (adjustment.raw confidence x).isNaN = x.isNaN := by
  have hfinite := confidence.isFinite_value
  have hnumber := confidence.isNaN_value
  cases adjustment with
  | assign value => rfl
  | add value => rw [raw, isNaN_add (Or.inl hfinite), hnumber, Bool.false_or]
  | sub value => rw [raw, isNaN_sub (Or.inl hfinite), hnumber, Bool.false_or]
  | subFrom value => rw [raw, isNaN_sub (Or.inr hfinite), hnumber, Bool.or_false]

theorem perform_of_isNaN (hx : operand adjustment.value = .ok x) (hnan : x.isNaN = true) :
    adjustment.perform confidence = .error .notNumber := by
  rw [perform_eq, Except.bind_of_ok hx,
    ofFloat_of_isNaN ((isNaN_raw adjustment confidence x).trans hnan)]

theorem exists_perform_eq (hx : operand adjustment.value = .ok x) (hnumber : x.isNaN = false) :
    ∃ result, adjustment.perform confidence = .ok result ∧
      result.value = Config.clampFloor (adjustment.raw confidence x) := by
  rw [perform_eq, Except.bind_of_ok hx]
  exact exists_ofFloat_eq ((isNaN_raw adjustment confidence x).trans hnumber)

theorem unpack_raw {sign : Sign} (h : x.toModel.unpack = .infinity sign) (adjustment : Adjustment)
    (confidence : Confidence) :
    (adjustment.raw confidence x).toModel.unpack = .infinity (adjustment.side sign) := by
  have hfinite := confidence.isFinite_value
  cases adjustment with
  | assign value => exact h
  | add value => exact unpack_add_infinity hfinite h
  | sub value => exact (unpack_sub_infinity hfinite h).1
  | subFrom value => exact (unpack_sub_infinity hfinite h).2

theorem perform_of_isInf (hx : operand adjustment.value = .ok x) (hinfinite : x.isInf = true) :
    adjustment.perform confidence = .ok (adjustment.limit x) := by
  rw [perform_eq, Except.bind_of_ok hx]
  rcases unpack_of_isInf hinfinite with ⟨hunpack, hpos⟩ | ⟨hunpack, hneg⟩
  · have hlimit : adjustment.limit x = endTowards (adjustment.side .positive) := by
      cases adjustment <;> exact if_pos hpos
    rw [ofFloat_of_infinity (unpack_raw hunpack adjustment confidence), hlimit]
  · have hlimit : adjustment.limit x = endTowards (adjustment.side .negative) := by
      cases adjustment <;> exact if_neg (not_lt_of_lt hneg)
    rw [ofFloat_of_infinity (unpack_raw hunpack adjustment confidence), hlimit]

/-- A value that cannot be read as a number, or is none, is refused. With every other value the
outcome is the nearest number in the unit interval, and an infinite one leads to an end of it. -/
def Saturates (adjustment : Adjustment) (confidence : Confidence) : Prop :=
  match operand adjustment.value with
  | .error error => adjustment.perform confidence = .error error
  | .ok x =>
    if x.isNaN then adjustment.perform confidence = .error .notNumber
    else
      ∃ result, adjustment.perform confidence = .ok result ∧
        result.value = Config.clampFloor (adjustment.raw confidence x) ∧
        0.0 ≤ result.value ∧ result.value ≤ 1.0 ∧ result.value.isNaN = false ∧
        (x.isInf = true → result = adjustment.limit x)

theorem saturates (adjustment : Adjustment) (confidence : Confidence) :
    adjustment.Saturates confidence := by
  unfold Saturates
  cases hoperand : operand adjustment.value with
  | error error =>
    dsimp only
    rw [perform_eq, hoperand]
    rfl
  | ok x =>
    dsimp only
    by_cases hnan : x.isNaN = true
    · rw [if_pos hnan]
      exact perform_of_isNaN hoperand hnan
    · rw [if_neg hnan]
      obtain ⟨result, hresult, hvalue⟩ := exists_perform_eq hoperand (eq_false_of_ne_true hnan)
      refine ⟨result, hresult, hvalue, result.nonneg, result.le_one, result.isNaN_value,
        fun hinfinite => ?_⟩
      rw [perform_of_isInf hoperand hinfinite] at hresult
      exact (Except.ok.inj hresult).symm

end Adjustment

/-- A confidence after some adjustments, of which those that fail change nothing. -/
def adjusted (confidence : Confidence) (adjustments : List Adjustment) : Confidence :=
  adjustments.foldl
    (fun confidence adjustment => (adjustment.perform confidence).toOption.getD confidence)
    confidence

theorem adjusted_append (confidence : Confidence) (first second : List Adjustment) :
    confidence.adjusted (first ++ second) = (confidence.adjusted first).adjusted second :=
  List.foldl_append

end Confidence

end RiskScan

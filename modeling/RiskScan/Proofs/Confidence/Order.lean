import Mathlib.Data.Prod.Lex
import Mathlib.Order.Compare
import RiskScan.Confidence
/-!
# The order of confidences

Floats are compared by sign, then by exponent, then by mantissa, and infinities lie beyond all of
them. So every float but a NaN has a rank, floats compare as their ranks do, and a NaN compares with
nothing.
-/

namespace RiskScan

open Float.Model (UnpackedFloat)

/-- The place of a float among the others. -/
def floatRank? : UnpackedFloat → Option (ℤ ×ₗ ℤ ×ₗ ℤ)
  | .infinity .negative => some (toLex (-2, toLex (0, 0)))
  | .finite .negative mantissa exponent _ => some (toLex (-1, toLex (-exponent, -mantissa)))
  | .zero _ => some (toLex (0, toLex (0, 0)))
  | .finite .positive mantissa exponent _ => some (toLex (1, toLex (exponent, mantissa)))
  | .infinity .positive => some (toLex (2, toLex (0, 0)))
  | .notANumber => none

theorem isLE_compare_then {exponent exponent' : ℤ} {mantissa mantissa' : ℕ} :
    ((compare exponent exponent').then (compare mantissa mantissa')).isLE = true ↔
      exponent < exponent' ∨ exponent = exponent' ∧ mantissa ≤ mantissa' := by
  rcases lt_trichotomy exponent exponent' with h | rfl | h
  · simp [compare_lt_iff_lt.mpr h, h]
  · rw [compare_eq_iff_eq.mpr rfl]
    simp [Ordering.then, Ordering.isLE_iff_ne_gt, compare_le_iff_le]
  · simp [compare_gt_iff_gt.mpr h, h.ne', not_lt_of_gt h]

theorem unpackedLe_iff (a b : UnpackedFloat) : a.le b = true ↔
    ∃ first second, floatRank? a = some first ∧ floatRank? b = some second ∧ first ≤ second := by
  rcases a with (_ | _) | _ | _ | ⟨(_ | _), mantissa, exponent, _⟩ <;>
    rcases b with (_ | _) | _ | _ | ⟨(_ | _), mantissa', exponent', _⟩ <;>
    dsimp only [UnpackedFloat.le, UnpackedFloat.compare, floatRank?] <;>
    simp [Prod.Lex.toLex_le_toLex, isLE_compare_then, Ordering.swap_then]
  case finite.negative.finite.negative =>
    rw [Int.compare_swap, Nat.compare_swap, isLE_compare_then, eq_comm]
  all_goals rfl

theorem compare_then_eq_lt {exponent exponent' : ℤ} {mantissa mantissa' : ℕ} :
    (compare exponent exponent').then (compare mantissa mantissa') = .lt ↔
      exponent < exponent' ∨ exponent = exponent' ∧ mantissa < mantissa' := by
  rcases lt_trichotomy exponent exponent' with h | rfl | h
  · simp [compare_lt_iff_lt.mpr h, h]
  · rw [compare_eq_iff_eq.mpr rfl]
    simp [Ordering.then, compare_lt_iff_lt]
  · simp [compare_gt_iff_gt.mpr h, h.ne', not_lt_of_gt h]

theorem unpackedLt_iff (a b : UnpackedFloat) : a.lt b = true ↔
    ∃ first second, floatRank? a = some first ∧ floatRank? b = some second ∧ first < second := by
  rcases a with (_ | _) | _ | _ | ⟨(_ | _), mantissa, exponent, _⟩ <;>
    rcases b with (_ | _) | _ | _ | ⟨(_ | _), mantissa', exponent', _⟩ <;>
    dsimp only [UnpackedFloat.lt, UnpackedFloat.compare, floatRank?] <;>
    simp [Prod.Lex.toLex_lt_toLex, compare_then_eq_lt, Ordering.swap_then]
  case finite.negative.finite.negative =>
    rw [Int.compare_swap, Nat.compare_swap, compare_then_eq_lt, eq_comm]
  all_goals rfl

theorem le_iff_rank {a b : Float} : a ≤ b ↔
    ∃ first second, floatRank? a.toModel.unpack = some first ∧
    floatRank? b.toModel.unpack = some second ∧ first ≤ second := by
  refine Iff.trans ?_ (unpackedLe_iff a.toModel.unpack b.toModel.unpack)
  exact decide_eq_true_iff

theorem lt_iff_rank {a b : Float} : a < b ↔
    ∃ first second, floatRank? a.toModel.unpack = some first ∧
    floatRank? b.toModel.unpack = some second ∧ first < second := by
  refine Iff.trans ?_ (unpackedLt_iff a.toModel.unpack b.toModel.unpack)
  exact decide_eq_true_iff

/-- A floor that some confidence reaches is reached by every higher one. -/
theorem float_le_trans {a b c : Float} (hab : a ≤ b) (hbc : b ≤ c) : a ≤ c := by
  obtain ⟨first, second, hfirst, hsecond, hle⟩ := le_iff_rank.mp hab
  obtain ⟨middle, third, hmiddle, hthird, hnext⟩ := le_iff_rank.mp hbc
  obtain rfl := Option.some.inj (hsecond.symm.trans hmiddle)
  exact le_iff_rank.mpr ⟨first, third, hfirst, hthird, hle.trans hnext⟩

theorem not_lt_of_lt {a b : Float} (h : a < b) : ¬ b < a := by
  obtain ⟨first, second, hfirst, hsecond, hlt⟩ := lt_iff_rank.mp h
  intro hback
  obtain ⟨third, fourth, hthird, hfourth, hgt⟩ := lt_iff_rank.mp hback
  obtain rfl := Option.some.inj (hsecond.symm.trans hthird)
  obtain rfl := Option.some.inj (hfirst.symm.trans hfourth)
  exact lt_asymm hlt hgt

theorem floatRank?_eq_none {a : UnpackedFloat} (h : a.isNaN = true) : floatRank? a = none := by
  cases a with
  | notANumber => rfl
  | infinity | zero | finite => cases h

theorem not_le_of_isNaN {a : Float} (h : a.isNaN = true) (b : Float) : ¬ a ≤ b := by
  intro hle
  obtain ⟨first, -, hfirst, -⟩ := le_iff_rank.mp hle
  rw [floatRank?_eq_none h] at hfirst
  cases hfirst

theorem not_lt_of_isNaN {a b : Float} (h : a.isNaN = true ∨ b.isNaN = true) : ¬ a < b := by
  intro hlt
  obtain ⟨first, second, hfirst, hsecond, -⟩ := lt_iff_rank.mp hlt
  rcases h with ha | hb
  · rw [floatRank?_eq_none ha] at hfirst
    cases hfirst
  · rw [floatRank?_eq_none hb] at hsecond
    cases hsecond

theorem exists_floatRank {a : UnpackedFloat} (h : a.isNaN = false) :
    ∃ rank, floatRank? a = some rank := by
  rcases a with (_ | _) | _ | _ | ⟨(_ | _), mantissa, exponent, _⟩
  case notANumber => cases h
  all_goals exact ⟨_, rfl⟩

/-- Numbers are ordered linearly, the two zeros being one. -/
theorem not_lt_iff_le {a b : Float} (ha : a.isNaN = false) (hb : b.isNaN = false) :
    ¬ a < b ↔ b ≤ a := by
  obtain ⟨first, hfirst⟩ := exists_floatRank ha
  obtain ⟨second, hsecond⟩ := exists_floatRank hb
  rw [lt_iff_rank, le_iff_rank, hfirst, hsecond]
  simp

end RiskScan

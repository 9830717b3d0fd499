import RiskScan.Decimal.Binary
import RiskScan.Proofs.Confidence.Order
/-!
# Finite, infinite, and no number

Of the arithmetic of floats only the class of a result matters here. Adding a number to a finite one
gives a number, however the sum is rounded; an infinite one swallows every finite one. The digits of
a sum are never looked at.
-/

namespace RiskScan

open Float.Model (UnpackedFloat Format)
open Float.Model.UnpackedFloat (Sign)

/-! ### Classes and bits -/

theorem unpack_pack_infinity (sign : Sign) :
    (Float.Model.pack (.infinity sign)).unpack = .infinity sign := by
  cases sign <;> rfl

/-- The class of a float can be seen from its bits. -/
theorem unpack_cases (bits : BitVec Format.binary64.numBits) :
    (UnpackedFloat.unpackExponent bits = -1#_ ∧ UnpackedFloat.unpackMantissa bits = 0#_ ∧
      ∃ sign, UnpackedFloat.unpack Format.binary64 bits = .infinity sign) ∨
    (UnpackedFloat.unpackExponent bits = -1#_ ∧ UnpackedFloat.unpackMantissa bits ≠ 0#_ ∧
      UnpackedFloat.unpack Format.binary64 bits = .notANumber) ∨
    (UnpackedFloat.unpackExponent bits ≠ -1#_ ∧
      (UnpackedFloat.unpack Format.binary64 bits).isFinite = true) := by
  by_cases hexponent : UnpackedFloat.unpackExponent bits = -1#_
  · by_cases hmantissa : UnpackedFloat.unpackMantissa bits = 0#_
    · exact Or.inl ⟨hexponent, hmantissa, _, (if_pos hexponent).trans (if_pos hmantissa)⟩
    · exact Or.inr (Or.inl ⟨hexponent, hmantissa, (if_pos hexponent).trans (if_neg hmantissa)⟩)
  · refine Or.inr
      (Or.inr ⟨hexponent, (congrArg UnpackedFloat.isFinite (if_neg hexponent)).trans ?_⟩)
    by_cases hzero : UnpackedFloat.unpackExponent bits = 0#_
    · refine (congrArg UnpackedFloat.isFinite (if_pos hzero)).trans ?_
      by_cases hmantissa : UnpackedFloat.unpackMantissa bits = 0#_
      · exact congrArg UnpackedFloat.isFinite (dif_pos hmantissa)
      · exact congrArg UnpackedFloat.isFinite (dif_neg hmantissa)
    · exact congrArg UnpackedFloat.isFinite (if_neg hzero)

theorem isNaN_of_isFinite {x : UnpackedFloat} (h : x.isFinite = true) : x.isNaN = false := by
  cases x <;> first | rfl | cases h

theorem isInf_of_isFinite {x : UnpackedFloat} (h : x.isFinite = true) : x.isInf = false := by
  cases x <;> first | rfl | cases h

theorem isNaN_unpack_components {exponent : BitVec Format.binary64.exponentBits}
    (h : exponent ≠ -1#_) (sign : Sign)
    (mantissa : BitVec Format.binary64.mantissaBitsWithoutImplicit) :
    (UnpackedFloat.unpack Format.binary64
      (UnpackedFloat.packComponents Format.binary64 sign exponent mantissa)).isNaN = false := by
  rcases unpack_cases (UnpackedFloat.packComponents Format.binary64 sign exponent mantissa) with
    ⟨hones, -⟩ | ⟨hones, -⟩ | ⟨-, hfinite⟩
  · rw [UnpackedFloat.unpackExponent_packComponents] at hones
    exact absurd hones h
  · rw [UnpackedFloat.unpackExponent_packComponents] at hones
    exact absurd hones h
  · exact isNaN_of_isFinite hfinite

/-- A number that is too large to be written down becomes infinite, which is not a NaN. -/
theorem isNaN_pack (x : UnpackedFloat) : (Float.Model.pack x).unpack.isNaN = x.isNaN := by
  change (UnpackedFloat.unpack Format.binary64 (UnpackedFloat.pack Format.binary64 x)).isNaN =
    x.isNaN
  cases x with
  | notANumber => rfl
  | infinity sign => cases sign <;> rfl
  | zero sign => cases sign <;> rfl
  | finite sign mantissa exponent =>
    let isNaN := fun bits => (UnpackedFloat.unpack Format.binary64 bits).isNaN
    let biased := (exponent + 1023 + 52).toNat
    by_cases hlarge : 2 ^ 11 ≤ biased + 1
    · refine (congrArg isNaN (if_pos hlarge)).trans ?_
      cases sign <;> rfl
    · refine (congrArg isNaN (if_neg hlarge)).trans ?_
      by_cases hnormal : mantissa.log2 + 1 = Format.binary64.mantissaBits
      · refine (congrArg isNaN (if_pos hnormal)).trans ?_
        refine isNaN_unpack_components (fun hones => hlarge ?_) sign _
        have hvalue : biased % 2 ^ 11 = 2047 := congrArg BitVec.toNat hones
        omega
      · refine (congrArg isNaN (if_neg hnormal)).trans ?_
        exact isNaN_unpack_components (by decide) sign _

theorem isInf_unpack_iff (bits : BitVec Format.binary64.numBits) :
    (UnpackedFloat.unpack Format.binary64 bits).isInf = true ↔
      UnpackedFloat.unpackExponent bits = -1#_ ∧ UnpackedFloat.unpackMantissa bits = 0#_ := by
  rcases unpack_cases bits with
    ⟨hexponent, hmantissa, sign, hunpack⟩ | ⟨-, hmantissa, hunpack⟩ | ⟨hexponent, hfinite⟩
  · rw [hunpack]
    exact iff_of_true rfl ⟨hexponent, hmantissa⟩
  · rw [hunpack]
    exact iff_of_false Bool.false_ne_true fun h => hmantissa h.2
  · rw [isInf_of_isFinite hfinite]
    exact iff_of_false Bool.false_ne_true fun h => hexponent h.1

namespace Decimal.Binary

theorem exists_infinite_iff_bits (x : Float) :
    (∃ negative, ofFloat x = .infinite negative) ↔
      x.toBits.toNat / Nat.pow 2 52 % Nat.pow 2 11 = 2047 ∧ x.toBits.toNat % Nat.pow 2 52 = 0 := by
  unfold ofFloat
  dsimp only
  split
  · rename_i hexponent
    split
    · rename_i hfraction
      exact iff_of_true ⟨_, rfl⟩ ⟨hexponent, hfraction⟩
    · rename_i hfraction
      exact iff_of_false nofun fun h => hfraction h.2
  · rename_i hexponent
    refine iff_of_false ?_ fun h => hexponent h.1
    split <;> nofun

/-- A float stands for no finite number exactly if its bits say so. -/
theorem exists_infinite_iff (x : Float) :
    (∃ negative, ofFloat x = .infinite negative) ↔ x.isInf = true := by
  have hexponent : (@UnpackedFloat.unpackExponent Format.binary64 x.toBits.toBitVec).toNat =
      x.toBits.toNat / Nat.pow 2 52 % Nat.pow 2 11 := by
    simp [UnpackedFloat.unpackExponent, Nat.shiftRight_eq_div_pow]
  have hmantissa : (@UnpackedFloat.unpackMantissa Format.binary64 x.toBits.toBitVec).toNat =
      x.toBits.toNat % Nat.pow 2 52 := by
    simp [UnpackedFloat.unpackMantissa]
  refine Iff.trans ?_ (isInf_unpack_iff x.toBits.toBitVec).symm
  rw [exists_infinite_iff_bits, ← hexponent, ← hmantissa, ← BitVec.toNat_inj, ← BitVec.toNat_inj]
  exact Iff.rfl

end Decimal.Binary

/-! ### Sums and differences -/

theorem isNaN_round (sign : Sign) (mantissa : ℕ) (exponent : ℤ) :
    (UnpackedFloat.round Format.binary64 sign mantissa exponent).isNaN = false := by
  -- The last step of rounding, whatever mantissa the shifts leave.
  have hlast : ∀ (rounded : ℕ) (shifted : ℤ),
      UnpackedFloat.isNaN (if h : rounded = 0 then .zero sign
      else .finite sign rounded shifted (Nat.zero_lt_of_ne_zero h)) = false := by
    intro rounded shifted
    by_cases hzero : rounded = 0
    · exact congrArg UnpackedFloat.isNaN (dif_pos hzero)
    · exact congrArg UnpackedFloat.isNaN (dif_neg hzero)
  exact hlast _ _

theorem isNaN_normalize (mantissa exponent : ℤ) (sign : Sign) :
    (UnpackedFloat.normalize Format.binary64 mantissa exponent sign).isNaN = false := by
  unfold UnpackedFloat.normalize
  split
  · exact isNaN_round _ _ _
  · rfl
  · exact isNaN_round _ _ _

/-- Adding makes no NaN of numbers, unless two infinities cancel. -/
theorem isNaN_unpackedAdd {a b : UnpackedFloat} (h : a.isFinite = true ∨ b.isFinite = true) :
    (UnpackedFloat.add Format.binary64 a b).isNaN = (a.isNaN || b.isNaN) := by
  rcases a with sign | _ | sign | _ <;> rcases b with other | _ | other | _
  case infinity.infinity => rcases h with h | h <;> cases h
  case zero.zero => cases sign <;> cases other <;> rfl
  case finite.finite => exact isNaN_normalize _ _ _
  all_goals rfl

theorem unpackedAdd_infinity {a : UnpackedFloat} (ha : a.isFinite = true) (sign : Sign) :
    UnpackedFloat.add Format.binary64 a (.infinity sign) = .infinity sign ∧
      UnpackedFloat.add Format.binary64 (.infinity sign) a = .infinity sign := by
  rcases a with _ | _ | _ | _ <;> cases ha <;> exact ⟨rfl, rfl⟩

theorem apply_neg (sign : Sign) (mantissa : ℤ) : (-sign).apply mantissa = -sign.apply mantissa := by
  cases sign with
  | negative => exact (Int.neg_neg mantissa).symm
  | positive => rfl

/-- A difference is a sum with the sign of the second number turned around. -/
theorem unpackedSub_eq (a b : UnpackedFloat) :
    UnpackedFloat.sub Format.binary64 a b = UnpackedFloat.add Format.binary64 a b.neg := by
  rcases a with _ | _ | _ | ⟨sign, mantissa, exponent, _⟩ <;>
    rcases b with _ | _ | _ | ⟨other, mantissa', exponent', _⟩
  case finite.finite =>
    have hsum : ∀ first second : ℕ,
        sign.apply first - other.apply second = sign.apply first + (-other).apply second := by
      intro first second
      rw [apply_neg, Int.sub_eq_add_neg]
    exact congrArg
      (fun total => UnpackedFloat.normalize Format.binary64 total (min exponent exponent')
        .positive) (hsum _ _)
  all_goals rfl

theorem isFinite_neg (x : UnpackedFloat) : x.neg.isFinite = x.isFinite := by
  cases x <;> rfl

theorem isNaN_neg (x : UnpackedFloat) : x.neg.isNaN = x.isNaN := by
  cases x <;> rfl

variable {a b : Float} {sign : Sign}

theorem isNaN_add (h : a.isFinite = true ∨ b.isFinite = true) :
    (a + b).isNaN = (a.isNaN || b.isNaN) :=
  (isNaN_pack _).trans (isNaN_unpackedAdd h)

theorem isNaN_sub (h : a.isFinite = true ∨ b.isFinite = true) :
    (a - b).isNaN = (a.isNaN || b.isNaN) := by
  refine (isNaN_pack _).trans ?_
  rw [unpackedSub_eq, isNaN_unpackedAdd, isNaN_neg]
  · rfl
  · rw [isFinite_neg]
    exact h

/-! ### Infinite floats -/

theorem unpack_add_infinity (ha : a.isFinite = true) (hb : b.toModel.unpack = .infinity sign) :
    (a + b).toModel.unpack = .infinity sign := by
  change (Float.Model.pack
    (UnpackedFloat.add Format.binary64 a.toModel.unpack b.toModel.unpack)).unpack = _
  rw [hb, (unpackedAdd_infinity ha sign).1, unpack_pack_infinity]

theorem unpack_sub_infinity (ha : a.isFinite = true) (hb : b.toModel.unpack = .infinity sign) :
    (a - b).toModel.unpack = .infinity (-sign) ∧ (b - a).toModel.unpack = .infinity sign := by
  change (Float.Model.pack
    (UnpackedFloat.sub Format.binary64 a.toModel.unpack b.toModel.unpack)).unpack = _ ∧
    (Float.Model.pack
      (UnpackedFloat.sub Format.binary64 b.toModel.unpack a.toModel.unpack)).unpack = _
  have hneg : a.toModel.unpack.neg.isFinite = true := (isFinite_neg _).trans ha
  have hturned : (UnpackedFloat.infinity sign).neg = .infinity (-sign) := rfl
  rw [hb, unpackedSub_eq, unpackedSub_eq, hturned, (unpackedAdd_infinity ha _).1,
    (unpackedAdd_infinity hneg sign).2, unpack_pack_infinity, unpack_pack_infinity]
  exact ⟨rfl, rfl⟩

theorem pos_of_infinity (h : a.toModel.unpack = .infinity .positive) : 0.0 < a := by
  have hzero : floatRank? (0.0 : Float).toModel.unpack = some (toLex (0, toLex (0, 0))) := rfl
  have hrank : floatRank? a.toModel.unpack = some (toLex (2, toLex (0, 0))) := by
    rw [h]
    rfl
  exact lt_iff_rank.mpr ⟨_, _, hzero, hrank, by decide⟩

theorem neg_of_infinity (h : a.toModel.unpack = .infinity .negative) : a < 0.0 := by
  have hzero : floatRank? (0.0 : Float).toModel.unpack = some (toLex (0, toLex (0, 0))) := rfl
  have hrank : floatRank? a.toModel.unpack = some (toLex (-2, toLex (0, 0))) := by
    rw [h]
    rfl
  exact lt_iff_rank.mpr ⟨_, _, hrank, hzero, by decide⟩

/-- An infinite float lies above all numbers or below them. -/
theorem unpack_of_isInf (h : a.isInf = true) :
    a.toModel.unpack = .infinity .positive ∧ 0.0 < a ∨
      a.toModel.unpack = .infinity .negative ∧ a < 0.0 := by
  change a.toModel.unpack.isInf = true at h
  cases hunpacked : a.toModel.unpack with
  | infinity sign =>
    cases sign with
    | positive => exact Or.inl ⟨rfl, pos_of_infinity hunpacked⟩
    | negative => exact Or.inr ⟨rfl, neg_of_infinity hunpacked⟩
  | notANumber | zero | finite =>
    rw [hunpacked] at h
    cases h

/-- What lies in the unit interval is finite. -/
theorem isFinite_of_mem (hnonneg : 0.0 ≤ a) (hle : a ≤ 1.0) : a.isFinite = true := by
  change a.toModel.unpack.isFinite = true
  obtain ⟨zero, first, hzero, hfirst, hzeroLe⟩ := le_iff_rank.mp hnonneg
  obtain ⟨second, one, hsecond, hone, hleOne⟩ := le_iff_rank.mp hle
  obtain rfl := Option.some.inj (hfirst.symm.trans hsecond)
  cases hunpacked : a.toModel.unpack with
  | zero | finite => rfl
  | notANumber =>
    rw [hunpacked] at hfirst
    cases hfirst
  | infinity sign =>
    rw [hunpacked] at hfirst
    cases sign with
    | positive =>
      cases hfirst
      cases hone
      exact absurd hleOne (by decide)
    | negative =>
      cases hfirst
      cases hzero
      exact absurd hzeroLe (by decide)

end RiskScan

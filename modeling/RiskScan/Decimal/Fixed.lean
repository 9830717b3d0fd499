import RiskScan.Decimal.Binary
/-!
# Fixed decimal places

A float shown with a fixed number of places is rounded from the number it stands for, not from its
shortest digits, and a number half-way between two goes to the even one.
-/

namespace RiskScan.Decimal

/-- The integer nearest to a quotient; a half goes to the even neighbour. -/
def roundHalfEven (num den : Nat) : Nat :=
  let below := num / den
  let remainder := num % den
  if 2 * remainder < den then below
  else if den < 2 * remainder then below + 1
  else if below % 2 = 0 then below else below + 1

/-- The digits of a number of units of the last place, with a point before that many places. -/
def placeDigits (places units : Nat) : List Char :=
  let digits := Nat.toDigits 10 units
  let padded := List.replicate (places + 1 - digits.length) '0' ++ digits
  let whole := padded.length - places
  if places = 0 then padded else padded.take whole ++ '.' :: padded.drop whole

def fixed (places : Nat) (x : Float) : String :=
  match Binary.ofFloat x with
  | .nan => "nan"
  | .infinite negative => if negative then "-inf" else "inf"
  | .finite negative significand exponent =>
    let units := roundHalfEven (significand * Nat.pow 10 places * Nat.pow 2 exponent.toNat)
      (Nat.pow 2 (-exponent).toNat)
    (if negative then "-" else "") ++ String.ofList (placeDigits places units)

end RiskScan.Decimal

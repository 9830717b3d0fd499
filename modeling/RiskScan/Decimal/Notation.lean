import RiskScan.Decimal.Shortest
/-!
# Writing floats

A float is written with the shortest digits that read back as the same float. Where the leading
digit lies in a given range of places the number is written out in full; beyond it an exponent is
used. The choices that differ between formats are the fields of `FloatStyle`.
-/

namespace RiskScan.Decimal

structure FloatStyle where
  /-- The least and the greatest exponent of the leading digit that are written out in full. -/
  leastPlain : Int
  greatestPlain : Int
  /-- Written after a single digit that has an exponent. -/
  loneDigitTail : String
  nan : String
  infinity : String

def digitText (digits : Nat) : List Char :=
  Nat.toDigits 10 digits

/-- An exponent has a sign and at least two digits. -/
def exponentText (exponent : Int) : List Char :=
  let digits := digitText exponent.natAbs
  (if exponent < 0 then '-' else '+') :: (if digits.length < 2 then '0' :: digits else digits)

/-- The digits in full, with at least one of them on each side of the point. -/
def plainText (digits : List Char) (leading : Int) : List Char :=
  if leading < 0 then
    '0' :: '.' :: List.replicate (-leading - 1).toNat '0' ++ digits
  else
    let whole := leading.toNat + 1
    let padded := digits ++ List.replicate (whole - digits.length) '0'
    let fraction := padded.drop whole
    padded.take whole ++ '.' :: (if fraction.isEmpty then ['0'] else fraction)

def FloatStyle.exponentForm (style : FloatStyle) (digits : List Char) (leading : Int) : List Char :=
  match digits with
  | [] => []
  | [digit] => digit :: style.loneDigitTail.toList ++ 'e' :: exponentText leading
  | digit :: rest => digit :: '.' :: rest ++ 'e' :: exponentText leading

def FloatStyle.write (style : FloatStyle) (x : Float) : String :=
  match Binary.ofFloat x with
  | .nan => style.nan
  | .infinite negative => (if negative then "-" else "") ++ style.infinity
  | .finite negative significand exponent =>
    let (number, place) := shortest significand exponent
    let digits := digitText number
    let leading := place + digits.length - 1
    let body :=
      if style.leastPlain ≤ leading ∧ leading ≤ style.greatestPlain then plainText digits leading
      else style.exponentForm digits leading
    (if negative then "-" else "") ++ String.ofList body

end RiskScan.Decimal

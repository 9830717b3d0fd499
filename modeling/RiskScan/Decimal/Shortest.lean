import RiskScan.Decimal.Binary
/-!
# Shortest decimals

A float stands for every real number that rounds to it. Among the decimals in that interval the
shortest is chosen, and among those of the same length the one nearest to the float itself. If some
decimal with a given number of digits lies in the interval, then so does one of the two neighbours
of the float on the grid of such decimals, so only these two are ever tried. Seventeen digits always
suffice.
-/

namespace RiskScan.Decimal

/-- A positive rational number. -/
structure Ratio where
  num : Nat
  den : Nat

/-- The fraction `numerator · 2 ^ binary / 10 ^ decimal`. -/
def Ratio.scaled (numerator : Nat) (binary decimal : Int) : Ratio :=
  { num := numerator * Nat.pow 2 binary.toNat * Nat.pow 10 (-decimal).toNat
    den := Nat.pow 2 (-binary).toNat * Nat.pow 10 decimal.toNat }

/-- Four times the significand, with the ends of the interval that rounds to it. -/
structure Interval where
  low : Nat
  value : Nat
  high : Nat
  closed : Bool
  /-- The binary exponent of all three. -/
  exponent : Int

def Interval.ofFinite (significand : Nat) (exponent : Int) : Interval :=
  { low := if significand = Nat.pow 2 52 ∧ -1074 < exponent then 4 * significand - 1
      else 4 * significand - 2
    value := 4 * significand
    high := 4 * significand + 2
    closed := significand % 2 == 0
    exponent := exponent - 2 }

/-- Whether `digits · 10 ^ place` lies in the interval. -/
def Interval.admits (interval : Interval) (place : Int) (digits : Nat) : Bool :=
  let low := Ratio.scaled interval.low interval.exponent place
  let high := Ratio.scaled interval.high interval.exponent place
  if interval.closed then low.num ≤ digits * low.den && digits * high.den ≤ high.num
  else low.num < digits * low.den && digits * high.den < high.num

/-- The neighbour of the float at `place` that lies in its interval, the nearer if both do. -/
def Interval.atPlace? (interval : Interval) (place : Int) : Option Nat :=
  let value := Ratio.scaled interval.value interval.exponent place
  let below := value.num / value.den
  let remainder := value.num % value.den
  match interval.admits place below, interval.admits place (below + 1) with
  | true, true =>
    if 2 * remainder < value.den then some below
    else if value.den < 2 * remainder then some (below + 1)
    else some (if below % 2 = 0 then below else below + 1)
  | true, false => some below
  | false, true => some (below + 1)
  | false, false => none

/-- The least `n` with `value < 10 ^ n`, sought from `guess` downwards and then upwards. -/
def magnitude (value : Ratio) : Int :=
  let below (n : Int) : Bool :=
    if 0 ≤ n then value.num < Nat.pow 10 n.toNat * value.den
    else value.num * Nat.pow 10 (-n).toNat < value.den
  let guess : Int := ((Nat.log2 value.num : Int) - (Nat.log2 value.den : Int)) * 30103 / 100000
  let rec up : Nat → Int → Int
    | 0, n => n
    | fuel + 1, n => if below n then n else up fuel (n + 1)
  up 8 (guess - 3)

/-- Drops the zeros at the end of a digit string, moving the place up. -/
def dropZeros : (fuel : Nat) → (digits : Nat) → (place : Int) → Nat × Int
  | 0, digits, place => (digits, place)
  | fuel + 1, digits, place =>
    if digits % 10 = 0 ∧ digits ≠ 0 then dropZeros fuel (digits / 10) (place + 1)
    else (digits, place)

/-- The shortest `digits · 10 ^ place` in the interval of `significand · 2 ^ exponent`. -/
def shortest (significand : Nat) (exponent : Int) : Nat × Int :=
  if significand = 0 then (0, 0)
  else
    let interval := Interval.ofFinite significand exponent
    let top := magnitude (Ratio.scaled interval.value interval.exponent 0)
    let rec search : (remaining : Nat) → (length : Nat) → Nat × Int
      | 0, _ => (significand, exponent)
      | remaining + 1, length =>
        let place := top - length
        match interval.atPlace? place with
        | some digits => dropZeros 20 digits place
        | none => search remaining (length + 1)
    search 17 1

end RiskScan.Decimal

import FiveStage.Decimal.Positional

/-!
# The fewest digits that read back

Every double owns an interval of reals that round to it, with its ends iff its significand is
even. Among the decimals of 1, 2, 3, … digits the first that meets the interval is shown. On a
grid only the two neighbours of the exact value can meet it. If both do, the nearer is taken, and
the upper one of two equally near.
-/
namespace FiveStage.Decimal

/-- The exponent of the first power of ten above a positive quotient. -/
def magnitude (num den : Nat) : Int :=
  if den ≤ num then (Nat.toDigits 10 (num / den)).length
  else 1 - ((Nat.toDigits 10 ((den - 1) / num)).length : Int)

/-- A double's value and the ends of its interval, in quarters of its last binary place. -/
structure Interval where
  low : Nat
  value : Nat
  high : Nat
  closed : Bool
  /-- A quarter of the last place, as a numerator over a denominator. -/
  unit : Nat × Nat

/-- The gap below the least significand of an exponent is half the gap above it. -/
def Interval.of (significand : Nat) (exponent : Int) : Interval where
  low := 4 * significand - if significand = Nat.pow 2 52 ∧ -1074 < exponent then 1 else 2
  value := 4 * significand
  high := 4 * significand + 2
  closed := significand % 2 == 0
  unit := Binary64.ratio 1 (exponent - 2)

/-- Ten to a power, as a numerator over a denominator. -/
def tenPower : Int → Nat × Nat
  | .ofNat e => (Nat.pow 10 e, 1)
  | .negSucc e => (1, Nat.pow 10 (e + 1))

/-- The shown decimal with so many digits: a multiple of ten to the returned exponent. -/
def neighbour? (interval : Interval) (digits : Nat) : Option (Nat × Int) :=
  let scale := magnitude (interval.value * interval.unit.1) interval.unit.2 - digits
  let (p, q) := tenPower scale
  let quarters (x : Nat) := x * interval.unit.1 * q
  let decimal (c : Nat) := c * p * interval.unit.2
  let inside (c : Nat) :=
    if interval.closed then quarters interval.low ≤ decimal c && decimal c ≤ quarters interval.high
    else quarters interval.low < decimal c && decimal c < quarters interval.high
  let c := quarters interval.value / (p * interval.unit.2)
  let nearerUp := decimal c + decimal (c + 1) ≤ 2 * quarters interval.value
  if inside (c + 1) && (nearerUp || !inside c) then some (c + 1, scale)
  else if inside c then some (c, scale)
  else none

/-- Seventeen digits always reach the interval. -/
def shortestDecimal (significand : Nat) (exponent : Int) : Nat × Int :=
  let interval := Interval.of significand exponent
  ((List.range 17).findSome? fun k => neighbour? interval (k + 1)).getD (0, 0)

/-- Takes the zeros at the end of a number into the exponent. -/
def dropZeros (c : Nat) (scale : Int) : Nat × Int :=
  let digits := (Nat.toDigits 10 c).reverse
  let zeros := (digits.takeWhile (· == '0')).length
  (c / Nat.pow 10 zeros, scale + zeros)

def shortestMagnitude (significand : Nat) (exponent : Int) : String :=
  if significand = 0 then "0"
  else
    let (c, scale) := shortestDecimal significand exponent
    match dropZeros c scale with
    | (c, .ofNat e) => positional (c * Nat.pow 10 e) 0
    | (c, .negSucc e) => positional c (e + 1)

def shortest (x : Float) : String := text shortestMagnitude (Binary64.ofFloat x)

end FiveStage.Decimal

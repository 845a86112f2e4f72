import FiveStage.Decimal.Positional

/-!
# A fixed number of places

The exact value is rounded to the nearest multiple of the last place, a half to the even one.
-/
namespace FiveStage.Decimal

/-- The integer nearest to a quotient, a half going to the even neighbour. -/
def roundHalfEven (num den : Nat) : Nat :=
  let low := num / den
  let twice := 2 * (num % den)
  if twice < den then low
  else if den < twice then low + 1
  else low + low % 2

def fixedMagnitude (places significand : Nat) (exponent : Int) : String :=
  let (num, den) := Binary64.ratio significand exponent
  positional (roundHalfEven (num * Nat.pow 10 places) den) places

def fixed (places : Nat) (x : Float) : String := text (fixedMagnitude places) (Binary64.ofFloat x)

end FiveStage.Decimal

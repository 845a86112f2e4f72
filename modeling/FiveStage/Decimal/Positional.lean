import FiveStage.Decimal.Binary64

/-!
# Positional decimal text

Digits with a point among them and never an exponent. The same words stand for infinity and for
what is no number wherever a double is shown.
-/
namespace FiveStage.Decimal

/-- Writes a whole number of units in the last of so many decimal places. -/
def positional (units places : Nat) : String :=
  let digits := Nat.toDigits 10 units
  let padded := List.replicate (places + 1 - digits.length) '0' ++ digits
  let whole := padded.take (padded.length - places)
  let rest := padded.drop (padded.length - places)
  String.ofList (if places = 0 then whole else whole ++ '.' :: rest)

def signText (negative : Bool) : String := if negative then "-" else ""

/-- Shows a double whose finite magnitudes are written by the given function. -/
def text (magnitude : Nat → Int → String) : Binary64 → String
  | .nan => "NaN"
  | .infinite negative => signText negative ++ "inf"
  | .finite negative significand exponent => signText negative ++ magnitude significand exponent

end FiveStage.Decimal

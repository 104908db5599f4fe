import TieredAdmission.Decimal.Digits
import TieredAdmission.Decimal.Binary

/-!
# Doubles with a fixed number of places

The exact value of the double is rounded to the given number of decimal places; a half goes to the
even neighbour. All digits before the point are written, and a negative zero keeps its sign.
-/

namespace TieredAdmission.Decimal

/-- The whole number nearest to a fraction; a half goes to the even neighbour. -/
def roundHalfEven (numerator denominator : Nat) : Nat :=
  let q := numerator / denominator
  let r := numerator % denominator
  if 2 * r < denominator then q
  else if 2 * r > denominator then q + 1
  else q + q % 2

def fixed (places : Nat) (x : Float) : String :=
  match Binary.ofFloat x with
  | .notANumber => "NaN"
  | .infinite negative => if negative then "-inf" else "inf"
  | .finite negative mantissa exponent =>
    let (numerator, denominator) := Binary.fraction mantissa exponent
    let scaled := roundHalfEven (numerator * tenTo places) denominator
    let whole := digits (scaled / tenTo places)
    let tail := if places = 0 then [] else '.' :: padded places (scaled % tenTo places)
    String.ofList ((if negative then ['-'] else []) ++ whole ++ tail)

example : roundHalfEven 5 2 = 2 ∧ roundHalfEven 7 2 = 4 ∧ roundHalfEven 8 3 = 3 := by decide

end TieredAdmission.Decimal

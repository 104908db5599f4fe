import TieredAdmission.Decimal.Digits
import TieredAdmission.Decimal.Binary

/-!
# Shortest decimals of doubles

A double is written with the fewest digits that read back to it, and with the nearest such decimal
when there are two. `shortest` finds the digits by trying grids of 1 to 17 digits: on the first grid
with a point in the interval of reals that round to the double, one of the two grid points around
the double is taken. `FloatStyle` says how the digits are laid out.
-/

namespace TieredAdmission.Decimal

/-- The exponent `k` with `10 ^ (k - 1) ≤ n / d < 10 ^ k`, for positive `n` and `d`. -/
def decimalExponent (n d : Nat) : Int :=
  let k : Int := (digits n).length - (digits d).length
  let reaches := if k < 0 then d ≤ n * tenTo k.natAbs else d * tenTo k.natAbs ≤ n
  if reaches then k + 1 else k

/-- The interval of reals that round to a double, in quarters of its last binary place. -/
structure Rounding where
  low : Nat
  centre : Nat
  high : Nat
  /-- The two ends round to the double as well. -/
  closed : Bool

/-- The interval of `mantissa * 2 ^ exponent`: half a place on each side, or a quarter below when
the double under it lies in the next lower binade. -/
def Rounding.of (mantissa : Nat) (exponent : Int) : Rounding where
  low := if mantissa = twoTo 52 ∧ exponent ≠ -1074 then 4 * mantissa - 1 else 4 * mantissa - 2
  centre := 4 * mantissa
  high := 4 * mantissa + 2
  closed := mantissa % 2 == 0

/-- The two points around `centre * unit` on the grid of step `step`, and whether each lies in the
interval; the nearer one is taken, and the upper one from the middle. -/
def Rounding.pick? (r : Rounding) (unit step : Nat) : Option Nat :=
  let below := r.centre * unit / step
  let above := below + 1
  let inside (p : Nat) : Bool :=
    let v := p * step
    if r.closed then decide (r.low * unit ≤ v ∧ v ≤ r.high * unit)
    else decide (r.low * unit < v ∧ v < r.high * unit)
  let nearerBelow := r.centre * unit - below * step < above * step - r.centre * unit
  match inside below, inside above with
  | false, false => none
  | true, false => some below
  | false, true => some above
  | true, true => some (if nearerBelow then below else above)

/-- Tries the grids of `17 - fuel` and more digits. -/
def searchGrids (r : Rounding) (exponent top : Int) : Nat → Nat × Int
  | 0 => (0, 0)
  | fuel + 1 =>
    let k : Int := top - (17 - fuel)
    -- `2 ^ (exponent - 2)` and `10 ^ k`, each over the product of both denominators
    let unit := twoTo (exponent - 2).toNat * tenTo (-k).toNat
    let step := tenTo k.toNat * twoTo (2 - exponent).toNat
    match r.pick? unit step with
    | some p => (p, k)
    | none => searchGrids r exponent top fuel

/-- Drops the final zeros of a number, raising the exponent. -/
def dropZeros : Nat → Nat × Int → Nat × Int
  | 0, p => p
  | fuel + 1, (n, k) => if n % 10 = 0 ∧ n ≠ 0 then dropZeros fuel (n / 10, k + 1) else (n, k)

/-- The fewest digits that read back to `mantissa * 2 ^ exponent`, and the power of ten of the last
one; zero has the single digit zero. -/
def shortest (mantissa : Nat) (exponent : Int) : Nat × Int :=
  if mantissa = 0 then (0, 0)
  else
    let (n, d) := Binary.fraction mantissa exponent
    dropZeros 17 (searchGrids (Rounding.of mantissa exponent) exponent (decimalExponent n d) 17)

/-- How the digits of a double are laid out. -/
structure FloatStyle where
  /-- Written after a whole number. -/
  wholeSuffix : String
  /-- The places of the point, counted from the first digit, that are written without an exponent;
  outside them, or never, the digits are followed by an exponent. -/
  plain : Int → Bool

/-- Plain decimals: never an exponent, and nothing after a whole number. -/
def FloatStyle.plainDecimal : FloatStyle := ⟨"", fun _ => true⟩

/-- Numbers of a data format: `.0` after whole numbers, and an exponent from `10 ^ 16` up and
below `10 ^ -5`. -/
def FloatStyle.dataNumber : FloatStyle := ⟨".0", fun point => decide (-5 < point ∧ point ≤ 16)⟩

def FloatStyle.layOut (style : FloatStyle) (n : Nat) (k : Int) : String :=
  let ds := digits n
  let point : Int := ds.length + k
  if style.plain point then
    if 0 ≤ k then String.ofList (ds ++ List.replicate k.toNat '0') ++ style.wholeSuffix
    else if 0 < point then
      String.ofList (ds.take point.toNat ++ '.' :: ds.drop point.toNat)
    else String.ofList ("0.".toList ++ List.replicate (-point).toNat '0' ++ ds)
  else
    let tail := if ds.length ≤ 1 then [] else '.' :: ds.drop 1
    String.ofList (ds.take 1 ++ tail) ++ "e" ++ toString (point - 1)

def FloatStyle.text (style : FloatStyle) (x : Float) : String :=
  match Binary.ofFloat x with
  | .notANumber => "NaN"
  | .infinite negative => if negative then "-inf" else "inf"
  | .finite negative mantissa exponent =>
    let (n, k) := shortest mantissa exponent
    (if negative then "-" else "") ++ style.layOut n k

end TieredAdmission.Decimal

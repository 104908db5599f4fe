import TieredAdmission.Decimal.Digits

/-!
# Decimal literals

A decimal literal is an optional sign followed by digits with an optional point among or around
them, of which at least one digit is left, and an optional exponent; or one of the words `inf`,
`infinity` and `nan` in any case. Its value is the nearest double, a tie going to the even one.
-/

namespace TieredAdmission.Decimal

def infinity : Float := Float.ofBits 0x7FF0000000000000

def notANumber : Float := Float.ofBits 0x7FF8000000000000

/-- The nearest double to `digits * 10 ^ exponent`. Exponents far outside the range of doubles are
settled by the number of digits alone. -/
def nearest (digits : Nat) (exponent : Int) : Float :=
  if digits = 0 then 0.0
  else
    let top : Int := (Decimal.digits digits).length + exponent
    if top > 310 then infinity
    else if top < -330 then 0.0
    else if exponent < 0 then Float.ofScientific digits true exponent.natAbs
    else Float.ofScientific digits false exponent.natAbs

/-- The optional sign in front of a literal: whether it is a minus sign, and the rest. -/
def splitSign : List Char → Bool × List Char
  | '-' :: rest => (true, rest)
  | '+' :: rest => (false, rest)
  | cs => (false, cs)

/-- The exponent part of a literal: nothing, or the letter `e`, an optional sign and digits. -/
def exponent? : List Char → Option Int
  | [] => some 0
  | e :: rest =>
    if e == 'e' || e == 'E' then
      let (negative, ds) := splitSign rest
      if ds.isEmpty || !ds.all isDigit then none
      else some (if negative then -(value ds : Int) else value ds)
    else none

/-- The value of a literal without its sign. -/
def magnitude? (cs : List Char) : Option Float :=
  let whole := cs.takeWhile isDigit
  match cs.dropWhile isDigit with
  | '.' :: rest =>
    let fraction := rest.takeWhile isDigit
    if whole.isEmpty && fraction.isEmpty then none
    else (exponent? (rest.dropWhile isDigit)).map fun e =>
      nearest (value (whole ++ fraction)) (e - fraction.length)
  | rest =>
    if whole.isEmpty then none
    else (exponent? rest).map fun e => nearest (value whole) e

def float? (s : String) : Option Float :=
  let (negative, body) := splitSign s.toList
  let lowered := body.map Char.toLower
  let size :=
    if lowered == "inf".toList || lowered == "infinity".toList then some infinity
    else if lowered == "nan".toList then some notANumber
    else magnitude? body
  size.map fun x => if negative then -x else x

end TieredAdmission.Decimal

/-!
# Doubles as binary fractions

A finite double is a sign and an exact value `mantissa * 2 ^ exponent`. Every printer of doubles in
this library works on that value in exact arithmetic.
-/

namespace TieredAdmission.Decimal

def twoTo (n : Nat) : Nat := Nat.pow 2 n

/-- What a double stands for. -/
inductive Binary where
  | notANumber
  | infinite (negative : Bool)
  | finite (negative : Bool) (mantissa : Nat) (exponent : Int)
deriving DecidableEq, Repr

def Binary.ofFloat (x : Float) : Binary :=
  let bits : Nat := x.toBits.toNat
  let negative := bits / twoTo 63 == 1
  let biased : Nat := bits / twoTo 52 % 2048
  let fraction : Nat := bits % twoTo 52
  if biased = 2047 then
    if fraction = 0 then .infinite negative else .notANumber
  else if biased = 0 then .finite negative fraction (-1074)
  else .finite negative (twoTo 52 + fraction) ((biased : Int) - 1075)

def isFinite (x : Float) : Bool := x.toBits.toNat / twoTo 52 % 2048 != 2047

def Binary.fraction (mantissa : Nat) (exponent : Int) : Nat × Nat :=
  if exponent < 0 then (mantissa, twoTo exponent.natAbs) else (mantissa * twoTo exponent.natAbs, 1)

/-- A double's place in the total order of doubles: negative ones below positive ones, each sign by
size, with negative zero just below zero and the non-numbers at the ends. -/
def totalKey (x : Float) : Int :=
  let bits : Nat := x.toBits.toNat
  if bits < twoTo 63 then (bits : Int) else -((bits - twoTo 63 : Nat) : Int) - 1

end TieredAdmission.Decimal

import TieredAdmission.Word

/-!
# Decimal digits

Natural numbers and their decimal digits, most significant first, and the reading of unsigned
counts: an optional plus sign and at least one ASCII digit, nothing else.
-/

namespace TieredAdmission.Decimal

/-- An ASCII decimal digit. -/
def isDigit (c : Char) : Bool := '0' ≤ c && c ≤ '9'

def digitValue (c : Char) : Nat := c.toNat - '0'.toNat

/-- The number that a list of digits writes, after the digits that make `acc`. -/
def valueFrom (acc : Nat) (cs : List Char) : Nat :=
  cs.foldl (fun n c => 10 * n + digitValue c) acc

def value (cs : List Char) : Nat := valueFrom 0 cs

def tenTo (n : Nat) : Nat := Nat.pow 10 n

/-- The digits of a number, without leading zeros; zero is one digit. -/
def digits (n : Nat) : List Char := Nat.toDigits 10 n

def text (n : Nat) : String := String.ofList (digits n)

/-- The digits of a number, with zeros in front up to a width. -/
def padded (width n : Nat) : List Char :=
  let ds := digits n
  List.replicate (width - ds.length) '0' ++ ds

/-- An unsigned count below a limit: an optional plus sign and one or more digits. -/
def count? (limit : Nat) (cs : List Char) : Option Nat :=
  let ds := match cs with
    | '+' :: rest => rest
    | _ => cs
  if ds.isEmpty || !ds.all isDigit then none
  else
    let n := value ds
    if n < limit then some n else none

def word64? (s : String) : Option Nat := count? Word.limit64 s.toList

def word32? (s : String) : Option Nat := count? Word.limit32 s.toList

end TieredAdmission.Decimal

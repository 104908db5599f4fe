import TieredAdmission.Toml.Lexical
import TieredAdmission.Toml.Text
import TieredAdmission.Decimal.Literal

/-!
# Numbers of TOML

Whole numbers in four bases and doubles. An underscore may stand between two digits, a decimal
number has no leading zeros, and whole numbers fill at most 64 bits with their sign. A double that
is too large is refused; one that is too far below zero is minus infinity.
-/

namespace TieredAdmission.Toml

open Decimal (isDigit)

/-- Reads digits, with single underscores between them. -/
def digitRun (isOne : Char → Bool) : List Char → List Char × List Char
  | [] => ([], [])
  | '_' :: c :: cs =>
    if isOne c then
      let (ds, rest) := digitRun isOne cs
      (c :: ds, rest)
    else ([], '_' :: c :: cs)
  | c :: cs =>
    if isOne c then
      let (ds, rest) := digitRun isOne cs
      (c :: ds, rest)
    else ([], c :: cs)

/-- Reads one digit or more, of which the first is no underscore. -/
def digits? (isOne : Char → Bool) : List Char → Option (List Char × List Char)
  | [] => none
  | c :: cs =>
    if isOne c then
      let (ds, rest) := digitRun isOne cs
      some (c :: ds, rest)
    else none

/-- Reads the digits of a decimal number without leading zeros. -/
def plainDigits? : List Char → Option (List Char × List Char)
  | '0' :: cs => some (['0'], cs)
  | cs => digits? isDigit cs

def exponent? : List Char → Option (Int × List Char)
  | [] => none
  | c :: cs =>
    if c == 'e' || c == 'E' then
      let (negative, cs) := Decimal.splitSign cs
      (digits? isDigit cs).map fun (ds, cs) =>
        (if negative then -(Decimal.value ds : Int) else Decimal.value ds, cs)
    else none

/-- Reads the words for infinity and for what is no number. -/
def special? (cs : List Char) : Option (Float × List Char) :=
  match exactly? ['i', 'n', 'f'] cs with
  | some rest => some (Decimal.infinity, rest)
  | none => (exactly? ['n', 'a', 'n'] cs).map fun rest => (Decimal.notANumber, rest)

/-- Reads a double without its sign that has a point or an exponent. -/
def pointed? (cs : List Char) : Option (Float × List Char) := do
  let (whole, cs) ← plainDigits? cs
  match cs with
  | '.' :: cs =>
    let (fraction, cs) ← digits? isDigit cs
    match exponent? cs with
    | some (e, cs) =>
      return (Decimal.nearest (Decimal.value (whole ++ fraction)) (e - fraction.length), cs)
    | none =>
      return (Decimal.nearest (Decimal.value (whole ++ fraction)) (-(fraction.length : Int)), cs)
  | cs =>
    let (e, cs) ← exponent? cs
    return (Decimal.nearest (Decimal.value whole) e, cs)

def float? (cs : List Char) : Option (Float × List Char) :=
  let (negative, body) := Decimal.splitSign cs
  match pointed? body with
  | some (x, rest) =>
    let signed := if negative then -x else x
    if Decimal.infinity ≤ signed then none else some (signed, rest)
  | none => (special? body).map fun (x, rest) => (if negative then -x else x, rest)

/-- The number that digits of a base write. -/
def valueIn (base : Nat) (ds : List Char) : Nat :=
  ds.foldl (fun n c => base * n + (hexDigit? c).getD 0) 0

def isDigitOf (base : Nat) (c : Char) : Bool :=
  match hexDigit? c with
  | some d => decide (d < base)
  | none => false

/-- The number, if it fills at most 64 bits with its sign. -/
def bounded? (n : Int) (rest : List Char) : Option (Int × List Char) :=
  if -(Word.limit63 : Int) ≤ n ∧ n < (Word.limit63 : Int) then some (n, rest) else none

/-- Reads a whole number of a base after its mark. -/
def based? (base : Nat) (cs : List Char) : Option (Int × List Char) :=
  (digits? (isDigitOf base) cs).bind fun (ds, rest) => bounded? (valueIn base ds) rest

def integer? : List Char → Option (Int × List Char)
  | '0' :: 'x' :: cs => based? 16 cs
  | '0' :: 'o' :: cs => based? 8 cs
  | '0' :: 'b' :: cs => based? 2 cs
  | cs =>
    let (negative, body) := Decimal.splitSign cs
    (plainDigits? body).bind fun (ds, rest) =>
      bounded? (if negative then -(Decimal.value ds : Int) else Decimal.value ds) rest

end TieredAdmission.Toml

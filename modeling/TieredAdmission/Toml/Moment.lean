import TieredAdmission.Toml.Lexical
import TieredAdmission.Decimal.Digits

/-!
# Dates and times of TOML

A date, a time of day, or both with an optional offset. Configurations hold none, so a date or time
is only recognised and its own text kept.
-/

namespace TieredAdmission.Toml

open Decimal (isDigit)

/-- Reads a number of exactly `size` digits within bounds. -/
def fixedNumber? (size low high : Nat) (cs : List Char) : Option (Nat × List Char) :=
  let ds := cs.take size
  let n := Decimal.value ds
  if ds.length = size ∧ ds.all isDigit ∧ low ≤ n ∧ n ≤ high then some (n, cs.drop size) else none

def daysIn (year month : Nat) : Nat :=
  let leap := year % 4 == 0 && (year % 100 != 0 || year % 400 == 0)
  if month = 2 then if leap then 29 else 28
  else if month = 4 ∨ month = 6 ∨ month = 9 ∨ month = 11 then 30
  else 31

def date? (cs : List Char) : Option (List Char) := do
  let (year, cs) ← fixedNumber? 4 0 9999 cs
  let (month, cs) ← fixedNumber? 2 1 12 (← exactly? ['-'] cs)
  let (_, cs) ← fixedNumber? 2 1 (daysIn year month) (← exactly? ['-'] cs)
  return cs

def time? (cs : List Char) : Option (List Char) := do
  let (_, cs) ← fixedNumber? 2 0 23 cs
  let (_, cs) ← fixedNumber? 2 0 59 (← exactly? [':'] cs)
  let (_, cs) ← fixedNumber? 2 0 60 (← exactly? [':'] cs)
  match cs with
  | '.' :: c :: rest => return if isDigit c then rest.dropWhile isDigit else cs
  | _ => return cs

def offset? : List Char → Option (List Char)
  | [] => none
  | c :: cs =>
    if c == 'Z' || c == 'z' then some cs
    else if c == '+' || c == '-' then do
      let (_, cs) ← fixedNumber? 2 0 23 cs
      let (_, cs) ← fixedNumber? 2 0 59 (← exactly? [':'] cs)
      return cs
    else none

/-- Reads past the time after a date. -/
def timeOfDate? : List Char → Option (List Char)
  | [] => none
  | c :: cs =>
    if c == 'T' || c == 't' || c == ' ' then (time? cs).map fun cs => (offset? cs).getD cs else none

def moment? (cs : List Char) : Option (String × List Char) :=
  let rest :=
    match date? cs with
    | some cs => some ((timeOfDate? cs).getD cs)
    | none => time? cs
  rest.map fun r => (String.ofList (cs.take (cs.length - r.length)), r)

end TieredAdmission.Toml

import TieredAdmission.Decimal.Literal

/-!
# Options of the simulation

The arguments of the simulation, read from left to right. The word after an option with a value is
its value, whatever it looks like; the last of several equal options counts; and the first argument
that is wrong is the one that is reported.
-/

namespace TieredAdmission

structure SimulateOptions where
  requests : Nat := 100
  json : Bool := false
  /-- The failure rate to take in place of the configured one. -/
  failureRate : Option Float := none

inductive OptionError where
  | missingCount
  | invalidCount (value : String)
  | missingRate
  | invalidRate (value : String)
  | rateOutOfRange (value : String)
  | unknown (word : String)
deriving DecidableEq, Repr

def OptionError.message : OptionError → String
  | missingCount => "--requests requires a value"
  | invalidCount value => "invalid request count: " ++ value
  | missingRate => "--failure-rate requires a value"
  | invalidRate value => "invalid failure rate: " ++ value
  | rateOutOfRange value => "failure rate must be within 0..=1: " ++ value
  | unknown word => "unknown simulate option: " ++ word

/-- A rate between zero and one. -/
def readRate (value : String) : Except OptionError Float :=
  match Decimal.float? value with
  | none => .error (.invalidRate value)
  | some rate => if 0.0 ≤ rate ∧ rate ≤ 1.0 then .ok rate else .error (.rateOutOfRange value)

def readCount (value : String) : Except OptionError Nat :=
  match Decimal.word64? value with
  | none => .error (.invalidCount value)
  | some n => .ok n

namespace SimulateOptions

/-- Reads arguments over the options read before. -/
def parseFrom (o : SimulateOptions) : List String → Except OptionError SimulateOptions
  | [] => .ok o
  | [arg] =>
    if arg = "--json" then .ok { o with json := true }
    else if arg = "--requests" ∨ arg = "-n" then .error .missingCount
    else if arg = "--failure-rate" then .error .missingRate
    else .error (.unknown arg)
  | arg :: value :: rest =>
    if arg = "--json" then parseFrom { o with json := true } (value :: rest)
    else if arg = "--requests" ∨ arg = "-n" then
      match readCount value with
      | .error e => .error e
      | .ok n => parseFrom { o with requests := n } rest
    else if arg = "--failure-rate" then
      match readRate value with
      | .error e => .error e
      | .ok rate => parseFrom { o with failureRate := some rate } rest
    else .error (.unknown arg)

def parse (args : List String) : Except OptionError SimulateOptions := parseFrom {} args

end SimulateOptions

end TieredAdmission

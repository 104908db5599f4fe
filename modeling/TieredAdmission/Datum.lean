import TieredAdmission.Word

/-!
# Data trees

The tree of plain values in which payloads and configurations arrive, whatever text they were
written in. The parts of a record may also be given as a list in the order of their names.
-/

namespace TieredAdmission

/-- A plain value. -/
inductive Datum where
  | null
  | flag (b : Bool)
  | integer (n : Int)
  | real (x : Float)
  | text (s : String)
  | list (items : List Datum)
  | record (fields : List (String × Datum))

/-- What differs between the notations in which trees are written. -/
structure Dialect where
  /-- What may stand under the name of a word that is written as a record. -/
  isNothing : Datum → Bool
  /-- Lists of parts may go on after the last part. -/
  longLists : Bool

namespace Dialect

/-- JSON, where null stands for nothing. -/
def json : Dialect := ⟨fun | .null => true | _ => false, false⟩

/-- Events in JSON, where an empty record may stand for nothing too. -/
def event : Dialect := ⟨fun | .null | .record [] => true | _ => false, false⟩

/-- TOML, which has no null: an empty table or array stands for nothing. -/
def toml : Dialect := ⟨fun | .record [] | .list [] => true | _ => false, true⟩

end Dialect

namespace Datum

instance : Inhabited Datum := ⟨null⟩

def text? : Datum → Option String
  | text s => some s
  | _ => none

def list? : Datum → Option (List Datum)
  | list xs => some xs
  | _ => none

def field? (name : String) : Datum → Option Datum
  | record fs => fs.lookup name
  | _ => none

def natBelow? (limit : Nat) : Datum → Option Nat
  | integer n => if 0 ≤ n ∧ n < limit then some n.toNat else none
  | _ => none

def word64? : Datum → Option Nat := natBelow? Word.limit64

def word32? : Datum → Option Nat := natBelow? Word.limit32

/-- The double of a whole number, which fills at most 64 bits with its sign aside. -/
def floatOfInt (n : Int) : Float :=
  if n < 0 then -n.natAbs.toUInt64.toFloat else n.natAbs.toUInt64.toFloat

def float? : Datum → Option Float
  | real x => some x
  | integer n => some (floatOfInt n)
  | _ => none

def flag? : Datum → Option Bool
  | flag b => some b
  | _ => none

/-- A word, written as text or as a record with that one name and nothing under it. -/
def word? (dialect : Dialect) : Datum → Option String
  | text s => some s
  | record [(s, d)] => if dialect.isNothing d then some s else none
  | _ => none

/-- How the parts of a value are looked up by name: in a record by their names, in a list by their
positions. A list longer than the names has no parts, unless the dialect passes over what is
left. -/
def parts? (dialect : Dialect) (names : List String) : Datum → Option (String → Option Datum)
  | record fs => some fun n => fs.lookup n
  | list xs =>
    if dialect.longLists || decide (xs.length ≤ names.length) then
      some fun n => (names.zip xs).lookup n
    else none
  | _ => none

end Datum

def required {α : Type} (parts : String → Option Datum) (name : String)
    (read : Datum → Option α) : Option α :=
  (parts name).bind read

/-- A part that may be left out, with the value it then has. -/
def optional {α : Type} (parts : String → Option Datum) (name : String)
    (read : Datum → Option α) (default : α) : Option α :=
  match parts name with
  | none => some default
  | some d => read d

end TieredAdmission

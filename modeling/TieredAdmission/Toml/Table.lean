import TieredAdmission.Datum

/-!
# Tables of TOML

A document fills one tree of tables. A table comes from a header, or it is implied by a longer
header, or by a dotted key; what may be added to it later depends on that. Values are added once:
neither a key nor a header may define anything again, dotted keys only add to tables that dotted
keys made, and headers do not add to such tables directly.
-/

namespace TieredAdmission.Toml

/-- How a table came to be. -/
inductive TableOrigin where
  /-- It has a header of its own. -/
  | header
  /-- It is named on the way to the header of another table. -/
  | implied
  /-- It is named by a dotted key. -/
  | dotted
deriving DecidableEq, Repr

/-- What stands under a name. -/
inductive Node where
  | value (d : Datum)
  | table (origin : TableOrigin) (fields : List (String × Node))
  /-- Tables of one header, the newest first. -/
  | tables (items : List (List (String × Node)))

/-- The fields of a table. -/
abbrev Fields := List (String × Node)

def Fields.replace (name : String) (node : Node) (fields : Fields) : Fields :=
  fields.map fun (k, n) => if k == name then (k, node) else (k, n)

/-- Changes the fields of the table on a way down from the root, making the tables that are missing.
`made` is the origin of those; a dotted key does not pass through a table with a header. The change
sees the origin of the table. -/
def updateAt (made : TableOrigin) (change : TableOrigin → Fields → Option Fields) :
    List String → TableOrigin → Fields → Option Fields
  | [], origin, fields => change origin fields
  | name :: way, _, fields =>
    match fields.lookup name with
    | none => (updateAt made change way made []).map fun sub => fields ++ [(name, .table made sub)]
    | some (.value _) => none
    | some (.table origin sub) =>
      if made = .dotted ∧ origin = .header then none
      else (updateAt made change way origin sub).map fun sub =>
        fields.replace name (.table origin sub)
    | some (.tables []) => none
    | some (.tables (newest :: older)) =>
      (updateAt made change way .header newest).map fun newest =>
        fields.replace name (.tables (newest :: older))

def assign (way : List String) (name : String) (value : Datum) (origin : TableOrigin)
    (fields : Fields) : Option Fields :=
  updateAt .dotted
    (fun origin fields =>
      if (origin == .dotted) == way.isEmpty then none
      else if (fields.lookup name).isSome then none
      else some (fields ++ [(name, .value value)]))
    way origin fields

/-- Begins the table of a header. -/
def beginTable (name : String) (fields : Fields) : Option Fields :=
  match fields.lookup name with
  | none => some (fields ++ [(name, .table .header [])])
  | some (.table .implied sub) => some (fields.replace name (.table .header sub))
  | some _ => none

/-- Begins one more table of a header for several tables. -/
def beginItem (name : String) (fields : Fields) : Option Fields :=
  match fields.lookup name with
  | none => some (fields ++ [(name, .tables [[]])])
  | some (.tables items) => some (fields.replace name (.tables ([] :: items)))
  | some _ => none

mutual

def Node.toDatum : Node → Datum
  | .value d => d
  | .table _ fields => .record (fieldsDatum fields)
  | .tables items => .list (itemsDatum items).reverse

def fieldsDatum : Fields → List (String × Datum)
  | [] => []
  | field :: rest => fieldDatum field :: fieldsDatum rest

def fieldDatum : String × Node → String × Datum
  | (name, node) => (name, node.toDatum)

def itemsDatum : List Fields → List Datum
  | [] => []
  | fields :: rest => .record (fieldsDatum fields) :: itemsDatum rest

end

end TieredAdmission.Toml

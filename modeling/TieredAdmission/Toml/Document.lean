import TieredAdmission.Toml.Text
import TieredAdmission.Toml.Number
import TieredAdmission.Toml.Moment
import TieredAdmission.Toml.Table

/-!
# Documents of TOML

Keys, values and whole documents. `read?` gives the data tree of a document, or nothing for a text
that is no document.
-/

namespace TieredAdmission.Toml

/-- Keys and values nest less deep than this. -/
def depthLimit : Nat := 80

def isBareKeyChar (c : Char) : Bool := c.isAlphanum || c == '_' || c == '-'

/-- Reads one name of a key. -/
def simpleKey? (cs : List Char) : Option (String × List Char) :=
  match cs with
  | '"' :: _ | '\'' :: _ => lineString? cs
  | _ =>
    match cs.takeWhile isBareKeyChar with
    | [] => none
    | name => some (String.ofList name, cs.dropWhile isBareKeyChar)

def names? : Nat → List Char → Option (List String × List Char)
  | 0, _ => none
  | fuel + 1, cs => do
    let (name, cs) ← simpleKey? (skipSpaces cs)
    match skipSpaces cs with
    | '.' :: cs =>
      let (names, cs) ← names? fuel cs
      return (name :: names, cs)
    | cs => return ([name], cs)

/-- Reads a key: the names on the way, and the last one. -/
def key? (cs : List Char) : Option ((List String × String) × List Char) := do
  let (names, cs) ← names? (cs.length + 1) cs
  if names.length < depthLimit then
    let last ← names.getLast?
    return ((names.dropLast, last), cs)
  else none

/-- The record in which a date or time is kept. -/
def momentDatum (text : String) : Datum := .record [("date-time", .text text)]

/-- Reads a value that holds no others and is no string. -/
def atom? (cs : List Char) : Option (Datum × List Char) :=
  match cs with
  | 't' :: _ => (exactly? "true".toList cs).map fun cs => (.flag true, cs)
  | 'f' :: _ => (exactly? "false".toList cs).map fun cs => (.flag false, cs)
  | _ =>
    match moment? cs with
    | some (text, cs) => some (momentDatum text, cs)
    | none =>
      match float? cs with
      | some (x, cs) => some (.real x, cs)
      | none => (integer? cs).map fun (n, cs) => (.integer n, cs)

mutual

/-- Reads a value at a depth. -/
def value? : Nat → Nat → List Char → Option (Datum × List Char)
  | 0, _, _ => none
  | fuel + 1, depth, cs =>
    match cs with
    | '"' :: _ | '\'' :: _ => (string? cs).map fun (s, cs) => (.text s, cs)
    | '[' :: cs =>
      if depth + 1 < depthLimit then
        (items? fuel (depth + 1) cs).map fun (xs, cs) => (.list xs, cs)
      else none
    | '\x7b' :: cs =>
      if depth + 1 < depthLimit then
        match skipSpaces cs with
        | '\x7d' :: cs => some (.record [], cs)
        | cs => (pairs? fuel (depth + 1) [] cs).map fun (fs, cs) => (.record (fieldsDatum fs), cs)
      else none
    | cs => atom? cs

def items? : Nat → Nat → List Char → Option (List Datum × List Char)
  | 0, _, _ => none
  | fuel + 1, depth, cs =>
    match skipLayout cs with
    | ']' :: cs => some ([], cs)
    | cs => do
      let (x, cs) ← value? fuel depth cs
      match skipLayout cs with
      | ',' :: cs =>
        let (xs, cs) ← items? fuel depth cs
        return (x :: xs, cs)
      | ']' :: cs => return ([x], cs)
      | _ => none

/-- Reads the pairs of an inline table and its closing brace, adding them to the fields before. -/
def pairs? : Nat → Nat → Fields → List Char → Option (Fields × List Char)
  | 0, _, _, _ => none
  | fuel + 1, depth, fields, cs => do
    let ((way, name), cs) ← key? cs
    let cs ← exactly? ['='] cs
    let (x, cs) ← value? fuel depth (skipSpaces cs)
    let fields ← assign way name x .header fields
    match skipSpaces cs with
    | ',' :: cs => pairs? fuel depth fields cs
    | '\x7d' :: cs => return (fields, cs)
    | _ => none

end

/-- What has been read of a document: its tables, and the way to the one that is being filled. -/
structure Progress where
  root : Fields := []
  header : List String := []

def readHeader? (p : Progress) (close : List Char)
    (begin : String → Fields → Option Fields) (cs : List Char) :
    Option (Progress × List Char) := do
  let ((way, name), cs) ← key? cs
  let cs ← exactly? close cs
  let cs ← lineEnd? cs
  let root ← updateAt .implied (fun _ fields => begin name fields) way .header p.root
  return (⟨root, way ++ [name]⟩, cs)

/-- Reads a key and its value into the table that is being filled. -/
def readPair? (p : Progress) (cs : List Char) : Option (Progress × List Char) := do
  let ((way, name), cs) ← key? cs
  let cs ← exactly? ['='] cs
  let (x, cs) ← value? (2 * cs.length + 2) 0 (skipSpaces cs)
  let cs ← lineEnd? cs
  let root ← updateAt .implied (fun _ fields => assign way name x .header fields) p.header .header
    p.root
  return ({ p with root }, cs)

def readLine? (p : Progress) (cs : List Char) : Option (Progress × List Char) :=
  match cs with
  | '#' :: _ => (lineEnd? cs).map fun cs => (p, cs)
  | '[' :: '[' :: cs => readHeader? p [']', ']'] beginItem cs
  | '[' :: cs => readHeader? p [']'] beginTable cs
  | '\n' :: _ | '\r' :: _ => (newline? cs).map fun cs => (p, cs)
  | _ => readPair? p cs

def readLines? : Nat → Progress → List Char → Option Progress
  | 0, _, _ => none
  | fuel + 1, p, cs =>
    match skipSpaces cs with
    | [] => some p
    | cs => (readLine? p cs).bind fun (p, cs) => readLines? fuel p cs

/-- Without the byte order mark in front. -/
def skipMark : List Char → List Char
  | '\ufeff' :: cs => cs
  | cs => cs

def read? (text : String) : Option Datum :=
  let cs := skipMark text.toList
  (readLines? (cs.length + 1) {} cs).map fun p => .record (fieldsDatum p.root)

end TieredAdmission.Toml

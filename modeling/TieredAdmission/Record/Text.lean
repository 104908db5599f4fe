import TieredAdmission.Datum
import TieredAdmission.Decimal.Shortest

/-!
# Data trees as JSON

The indented JSON text of a data tree: two blanks for each level, one name or item on a line, and
nothing between the brackets of what is empty. Doubles are written with the fewest digits that read
back; those that are no finite number are null.
-/

namespace TieredAdmission

namespace JsonText

def hexDigit (n : Nat) : Char := Nat.digitChar n

/-- The characters that stand for a character inside quotes. -/
def escape (c : Char) : List Char :=
  match c with
  | '"' => ['\\', '"']
  | '\\' => ['\\', '\\']
  | '\n' => ['\\', 'n']
  | '\r' => ['\\', 'r']
  | '\t' => ['\\', 't']
  | '\x08' => ['\\', 'b']
  | '\x0c' => ['\\', 'f']
  | c =>
    if c.toNat < 0x20 then ['\\', 'u', '0', '0', hexDigit (c.toNat / 16), hexDigit (c.toNat % 16)]
    else [c]

def quoted (s : String) : String := String.ofList ('"' :: s.toList.flatMap escape ++ ['"'])

def float (x : Float) : String :=
  if Decimal.isFinite x then Decimal.FloatStyle.dataNumber.text x else "null"

/-- A line end and the blanks of a level. -/
def newline (level : Nat) : String := String.ofList ('\n' :: List.replicate (2 * level) ' ')

mutual

def value (level : Nat) : Datum → String
  | .null => "null"
  | .flag b => if b then "true" else "false"
  | .integer n => toString n
  | .real x => float x
  | .text s => quoted s
  | .list [] => "[]"
  | .list (x :: xs) => "[" ++ items (level + 1) (x :: xs) ++ newline level ++ "]"
  | .record [] => "\x7b\x7d"
  | .record (f :: fs) => "\x7b" ++ fields (level + 1) (f :: fs) ++ newline level ++ "\x7d"

def items (level : Nat) : List Datum → String
  | [] => ""
  | x :: xs => newline level ++ value level x ++ (if xs.isEmpty then "" else ",") ++ items level xs

def fields (level : Nat) : List (String × Datum) → String
  | [] => ""
  | f :: fs => newline level ++ field level f ++ (if fs.isEmpty then "" else ",") ++ fields level fs

def field (level : Nat) : String × Datum → String
  | (name, d) => quoted name ++ ": " ++ value level d

end

end JsonText

/-- The indented JSON text of a data tree. -/
def Datum.toJsonText (d : Datum) : String := JsonText.value 0 d

end TieredAdmission

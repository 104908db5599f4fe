import TieredAdmission.Toml.Lexical

/-!
# Strings of TOML

Basic strings in double quotes have escapes, literal strings in single quotes have none. In threes
the quotes enclose several lines: a line end right after them does not count, every line end is a
line feed, and up to two quotes may stand before the closing three. In a basic string over several
lines a backslash at the end of a line takes away the blanks and line ends that follow.
-/

namespace TieredAdmission.Toml

def hexDigit? (c : Char) : Option Nat :=
  if '0' ≤ c && c ≤ '9' then some (c.toNat - '0'.toNat)
  else if 'a' ≤ c && c ≤ 'f' then some (c.toNat - 'a'.toNat + 10)
  else if 'A' ≤ c && c ≤ 'F' then some (c.toNat - 'A'.toNat + 10)
  else none

def hexValue? (cs : List Char) : Option Nat :=
  cs.foldlM (fun n c => (hexDigit? c).map fun d => 16 * n + d) 0

/-- The character with a code point that is a scalar value. -/
def scalar? (n : Nat) : Option Char := if n.isValidChar then some (Char.ofNat n) else none

def codePoint? (size : Nat) (cs : List Char) : Option (Char × List Char) :=
  if cs.length < size then none
  else ((hexValue? (cs.take size)).bind scalar?).map fun c => (c, cs.drop size)

def escape? : List Char → Option (Char × List Char)
  | [] => none
  | c :: cs =>
    match c with
    | 'b' => some ('\x08', cs)
    | 't' => some ('\t', cs)
    | 'n' => some ('\n', cs)
    | 'f' => some ('\x0c', cs)
    | 'r' => some ('\r', cs)
    | '"' => some ('"', cs)
    | '\\' => some ('\\', cs)
    | 'u' => codePoint? 4 cs
    | 'U' => codePoint? 8 cs
    | _ => none

/-- Without the blanks and line ends in front. -/
def skipBlankLines : List Char → List Char
  | [] => []
  | c :: cs =>
    if isSpace c || c == '\n' || (c == '\r' && cs.head? == some '\n') then skipBlankLines cs
    else c :: cs

/-- The line end after a backslash with the blanks and line ends after it taken away; none when no
line end follows. -/
def continuation? (cs : List Char) : Option (List Char) :=
  (newline? (skipSpaces cs)).map skipBlankLines

/-- Reads a string on one line after its opening quote. -/
def lineText? (quote : Char) : Nat → List Char → Option (List Char × List Char)
  | 0, _ => none
  | _, [] => none
  | fuel + 1, c :: cs =>
    if c == quote then some ([], cs)
    else if c == '\\' && quote == '"' then do
      let (d, cs) ← escape? cs
      let (text, cs) ← lineText? quote fuel cs
      return (d :: text, cs)
    else if isTextChar c then do
      let (text, cs) ← lineText? quote fuel cs
      return (c :: text, cs)
    else none

/-- Reads a string over several lines after its opening quotes. -/
def blockText? (quote : Char) : Nat → List Char → Option (List Char × List Char)
  | 0, _ => none
  | _, [] => none
  | fuel + 1, c :: cs =>
    let continueWith (d : Char) (rest : List Char) : Option (List Char × List Char) :=
      (blockText? quote fuel rest).map fun (text, rest) => (d :: text, rest)
    if c == quote then
      let run := (c :: cs).takeWhile (· == quote)
      if run.length < 3 then continueWith c cs
      else
        let extra := min (run.length - 3) 2
        some (List.replicate extra quote, (c :: cs).drop (extra + 3))
    else if c == '\n' then continueWith '\n' cs
    else if c == '\r' then
      match cs with
      | '\n' :: cs => continueWith '\n' cs
      | _ => none
    else if c == '\\' && quote == '"' then
      match continuation? cs with
      | some cs => blockText? quote fuel cs
      | none =>
        match escape? cs with
        | some (d, cs) => continueWith d cs
        | none => none
    else if isTextChar c then continueWith c cs
    else none

def lineString? : List Char → Option (String × List Char)
  | '"' :: cs => (lineText? '"' (cs.length + 1) cs).map fun (t, cs) => (String.ofList t, cs)
  | '\'' :: cs => (lineText? '\'' (cs.length + 1) cs).map fun (t, cs) => (String.ofList t, cs)
  | _ => none

def blockString? (quote : Char) (cs : List Char) : Option (String × List Char) :=
  let cs := (newline? cs).getD cs
  (blockText? quote (cs.length + 1) cs).map fun (t, cs) => (String.ofList t, cs)

def string? : List Char → Option (String × List Char)
  | '"' :: '"' :: '"' :: cs => blockString? '"' cs
  | '\'' :: '\'' :: '\'' :: cs => blockString? '\'' cs
  | cs => lineString? cs

end TieredAdmission.Toml

import TieredAdmission.Logging.Pattern.Basic

/-!
# Escapes in patterns

What a backslash and the characters after it stand for. Characters are written as themselves, by a
letter or by their number in hexadecimal digits, of which two stand for a byte; other letters stand
for a class of characters or for a place in the text. The properties of characters are unknown here,
so classes and the edges of words can be used only where patterns match bytes.
-/

namespace TieredAdmission.Logging

inductive PatternEscape where
  | literal (c : Char)
  /-- A byte, or the character with its number. -/
  | byte (value : Nat)
  /-- Digits, blanks or the characters of words, or all others. -/
  | category (negated : Bool)
  /-- The begin or the end of a word, or neither. -/
  | wordEdge
  /-- The begin or the end of the text. -/
  | textEdge
deriving DecidableEq, Repr

def hexDigit? (c : Char) : Option Nat :=
  if c.isDigit then some (c.toNat - '0'.toNat)
  else if 'a' ≤ c ∧ c ≤ 'f' then some (c.toNat - 'a'.toNat + 10)
  else if 'A' ≤ c ∧ c ≤ 'F' then some (c.toNat - 'A'.toNat + 10)
  else none

/-- Reads the number of so many hexadecimal digits, after the digits that make `n`. -/
def hexNumber? (m : PatternMode) : Nat → Nat → List Char → Option (Nat × List Char)
  | 0, n, cs => some (n, cs)
  | width + 1, n, cs =>
    match m.skip cs with
    | [] => none
    | c :: cs => (hexDigit? c).bind fun d => hexNumber? m width (16 * n + d) cs

/-- Reads the character whose number so many hexadecimal digits write. -/
def hexCharacter? (m : PatternMode) (width : Nat) (cs : List Char) :
    Option (PatternEscape × List Char) :=
  (hexNumber? m width 0 cs).bind fun (n, cs) =>
    if n.isValidChar then some (.literal (Char.ofNat n), cs) else none

/-- The characters that letters after a backslash stand for. -/
def controlLetters : List (Char × Char) :=
  [('a', '\x07'), ('f', '\x0c'), ('t', '\t'), ('n', '\n'), ('r', '\r'), ('v', '\x0b')]

/-- A character that a backslash leaves as it is: an ASCII character that is neither letter, digit
nor angle bracket. -/
def standsForItself (c : Char) : Bool :=
  decide (c.toNat < 0x80) && !c.isAlphanum && c != '<' && c != '>'

/-- Reads an escape, from the character after the backslash. -/
def readEscape (m : PatternMode) : List Char → Option (PatternEscape × List Char)
  | [] => none
  | c :: cs =>
    if c == 'x' then (hexNumber? m 2 0 cs).map fun (n, cs) => (.byte n, cs)
    else if c == 'u' then hexCharacter? m 4 cs
    else if c == 'U' then hexCharacter? m 8 cs
    else if c == 'd' || c == 's' || c == 'w' then some (.category false, cs)
    else if c == 'D' || c == 'S' || c == 'W' then some (.category true, cs)
    else if c == 'b' || c == 'B' || c == '<' || c == '>' then some (.wordEdge, cs)
    else if c == 'A' || c == 'z' then some (.textEdge, cs)
    else if standsForItself c then some (.literal c, cs)
    else (controlLetters.lookup c).map fun d => (.literal d, cs)

namespace PatternMode

/-- A character can stand outside brackets. The cases of characters are known for bytes only. -/
def allowsLiteral (m : PatternMode) : Bool := !(m.unicode && m.foldsCase)

/-- An escape can stand outside brackets. -/
def allows (m : PatternMode) : PatternEscape → Bool
  | .literal _ => m.allowsLiteral
  | .byte n => m.allowsLiteral && (m.unicode || decide (n < 0x80))
  | .category negated => !m.unicode && !negated
  | .wordEdge => !m.unicode
  | .textEdge => true

end PatternMode

end TieredAdmission.Logging

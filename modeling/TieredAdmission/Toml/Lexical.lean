/-!
# The lexical ground of TOML

Blanks, comments and line ends. Every reader takes the characters still to be read and gives back
what it read with the characters after it, or nothing when the text is not what it reads.
-/

namespace TieredAdmission.Toml

def isSpace (c : Char) : Bool := c == ' ' || c == '\t'

def isNonAscii (c : Char) : Bool := decide (0x80 ≤ c.toNat)

/-- A character that comments hold, and that strings hold as it stands unless it is their quote or
begins an escape: a tab, or no control character of ASCII. -/
def isTextChar (c : Char) : Bool :=
  c == '\t' || (decide (0x20 ≤ c.toNat) && decide (c.toNat ≤ 0x7E)) || isNonAscii c

def skipSpaces (cs : List Char) : List Char := cs.dropWhile isSpace

/-- Without the line end in front, which has to be there. -/
def newline? : List Char → Option (List Char)
  | '\n' :: cs => some cs
  | '\r' :: '\n' :: cs => some cs
  | _ => none

def skipComment : List Char → List Char
  | '#' :: cs => cs.dropWhile isTextChar
  | cs => cs

/-- Without the rest of the line, which may hold blanks and a comment only. -/
def lineEnd? (cs : List Char) : Option (List Char) :=
  match skipComment (skipSpaces cs) with
  | [] => some []
  | cs => newline? cs

/-- Without the blanks, comments and line ends in front; `inComment` says whether reading begins in
a comment. -/
def skipLayoutFrom (inComment : Bool) : List Char → List Char
  | [] => []
  | c :: cs =>
    if inComment && isTextChar c then skipLayoutFrom true cs
    else if isSpace c || c == '\n' then skipLayoutFrom false cs
    else if c == '\r' && cs.head? == some '\n' then skipLayoutFrom false cs
    else if !inComment && c == '#' then skipLayoutFrom true cs
    else c :: cs

def skipLayout (cs : List Char) : List Char := skipLayoutFrom false cs

def exactly? : List Char → List Char → Option (List Char)
  | [], cs => some cs
  | w :: ws, c :: cs => if w == c then exactly? ws cs else none
  | _ :: _, [] => none

end TieredAdmission.Toml

import TieredAdmission.Text.Blank

/-!
# The ground of patterns

How a pattern is read at a place, and how deeply its parts are nested. Patterns are known here only
by whether they can be used: which texts they match is never asked.
-/

namespace TieredAdmission.Logging

/-- How a pattern is read at a place. Groups switch it. -/
structure PatternMode where
  /-- Letters match whatever their case. -/
  foldsCase : Bool := false
  /-- The pattern matches characters and not bytes. -/
  unicode : Bool := true
  /-- Blanks and comments stand for nothing. -/
  spaced : Bool := false
deriving DecidableEq, Repr

namespace PatternMode

/-- Without the blanks and comments in front. A comment reaches to the end of its line. -/
def skipSpaced (inComment : Bool) : List Char → List Char
  | [] => []
  | c :: cs =>
    if inComment then skipSpaced (c != '\n') cs
    else if Text.isBlank c then skipSpaced false cs
    else if c == '#' then skipSpaced true cs
    else c :: cs

/-- Without what stands for nothing in front. -/
def skip (m : PatternMode) (cs : List Char) : List Char :=
  if m.spaced then skipSpaced false cs else cs

/-- The next character to be read, as far as it is known without reading comments: blanks are left
out, with one mark of a comment among them. -/
def glance (m : PatternMode) (cs : List Char) : Option Char :=
  if m.spaced then
    match cs.dropWhile Text.isBlank with
    | '#' :: rest => (rest.dropWhile Text.isBlank).head?
    | rest => rest.head?
  else cs.head?

end PatternMode

/-- A row of parts: how many there are, and the height of the tallest. -/
structure PatternRow where
  count : Nat := 0
  tallest : Nat := 0
deriving DecidableEq, Repr

namespace PatternRow

def add (r : PatternRow) (height : Nat) : PatternRow := ⟨r.count + 1, max r.tallest height⟩

/-- The height of the row as one part. A row of one part is that part. -/
def height (r : PatternRow) : Nat := if r.count < 2 then r.tallest else r.tallest + 1

end PatternRow

end TieredAdmission.Logging

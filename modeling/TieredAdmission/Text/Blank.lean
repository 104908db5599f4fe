/-!
# Blank characters and plain words

A word is read after the blanks around it are dropped and its ASCII capitals are lowered. Blank
characters are the ones with the Unicode property `White_Space`.
-/

namespace TieredAdmission.Text

/-- The characters with the Unicode property `White_Space`. -/
def isBlank (c : Char) : Bool :=
  let n := c.toNat
  (9 ≤ n && n ≤ 13) || n == 0x20 || n == 0x85 || n == 0xA0 || n == 0x1680 ||
  (0x2000 ≤ n && n ≤ 0x200A) || n == 0x2028 || n == 0x2029 || n == 0x202F || n == 0x205F ||
  n == 0x3000

def trimList (cs : List Char) : List Char :=
  ((cs.dropWhile isBlank).reverse.dropWhile isBlank).reverse

/-- The text without the blanks at either end. -/
def trim (s : String) : String := String.ofList (trimList s.toList)

/-- The text with its ASCII capitals lowered; other characters stay. -/
def lower (s : String) : String := String.ofList (s.toList.map Char.toLower)

/-- The form in which a word is looked up and reported. -/
def word (s : String) : String := lower (trim s)

end TieredAdmission.Text

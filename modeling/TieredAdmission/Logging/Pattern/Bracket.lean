import TieredAdmission.Logging.Pattern.Escape

/-!
# Sets of characters in patterns

A set of characters stands in brackets: characters, ranges of them, named classes of ASCII and
further sets, joined or combined by an operator. Where patterns match bytes a set holds ASCII
characters alone, so that none can be turned into its complement.
-/

namespace TieredAdmission.Logging

def asciiClassNames : List String :=
  ["alnum", "alpha", "ascii", "blank", "cntrl", "digit", "graph", "lower", "print", "punct",
    "space", "upper", "word", "xdigit"]

structure OpenSet where
  /-- The members read since the last operator. -/
  members : PatternRow := {}
  /-- The height of what stands before the last operator, if there is one. -/
  left : Option Nat := none
  /-- Nothing but dashes has been read. -/
  begins : Bool := true
deriving DecidableEq, Repr

namespace OpenSet

def add (s : OpenSet) (height : Nat) : OpenSet := { s with members := s.members.add height }

def height (s : OpenSet) : Nat :=
  match s.left with
  | none => s.members.height
  | some l => max l s.members.height + 1

end OpenSet

namespace PatternMode

/-- A character with a number can be a member of a set. -/
def allowsMember (m : PatternMode) (n : Nat) : Bool :=
  if m.unicode then !m.foldsCase else decide (n < 0x80)

/-- A named class or its complement can be a member of a set. -/
def allowsClass (m : PatternMode) (negated : Bool) : Bool :=
  if m.unicode then !m.foldsCase else !negated

/-- Reads the begin of a set after its bracket: the sign of a complement, if there is one. -/
def openSet? (m : PatternMode) (cs : List Char) : Option (List Char) :=
  match m.skip cs with
  | '^' :: cs => if m.unicode then some cs else none
  | cs => some cs

/-- Reads a member that is a character, whose number comes first, or a category of characters. -/
def member? (m : PatternMode) : List Char → Option (Option Nat × List Char)
  | [] => none
  | '\\' :: cs =>
    match readEscape m cs with
    | some (.literal c, cs) => if m.allowsMember c.toNat then some (some c.toNat, cs) else none
    | some (.byte n, cs) => if m.allowsMember n then some (some n, cs) else none
    | some (.category negated, cs) => if m.unicode || negated then none else some (none, cs)
    | _ => none
  | c :: cs => if m.allowsMember c.toNat then some (some c.toNat, cs) else none

def range? (m : PatternMode) (cs : List Char) : Option (List Char) :=
  match m.member? cs with
  | none => none
  | some (first, cs) =>
    match m.skip cs with
    | '-' :: rest =>
      if m.glance rest = some ']' ∨ m.glance rest = some '-' then some ('-' :: rest)
      else
        match first, m.member? (m.skip rest) with
        | some a, some (some b, cs) => if a ≤ b then some cs else none
        | _, _ => none
    | cs => some cs

end PatternMode

/-- Reads a class of ASCII after its bracket, and whether it stands for its complement. -/
def asciiClass? : List Char → Option (Bool × List Char)
  | ':' :: cs =>
    let (negated, cs) := match cs with
      | '^' :: rest => (true, rest)
      | _ => (false, cs)
    match cs.dropWhile (· != ':') with
    | ':' :: ']' :: rest =>
      let name := String.ofList (cs.takeWhile (· != ':'))
      if asciiClassNames.contains name then some (negated, rest) else none
    | _ => none
  | _ => none

/-- Reads a set to its closing bracket, with the sets around it, within `fuel` steps; the height of
the outermost set comes first. -/
def readSet (m : PatternMode) : Nat → OpenSet → List OpenSet → List Char → Option (Nat × List Char)
  | 0, _, _, _ => none
  | fuel + 1, s, outer, cs =>
    match m.skip cs with
    | [] => none
    | c :: cs =>
      if s.begins && (c == '-' || (c == ']' && decide (s.members.count = 0))) then
        if m.allowsMember c.toNat then readSet m fuel { s.add 0 with begins := c == '-' } outer cs
        else none
      else
        let s := { s with begins := false }
        match c, cs with
        | '[', cs =>
          match asciiClass? cs with
          | some (negated, cs) =>
            if m.allowsClass negated then readSet m fuel (s.add 0) outer cs else none
          | none => (m.openSet? cs).bind fun cs => readSet m fuel {} (s :: outer) cs
        | ']', cs =>
          match outer with
          | [] => some (s.height + 1, cs)
          | t :: outer => readSet m fuel (t.add (s.height + 1)) outer cs
        | '&', '&' :: cs | '-', '-' :: cs | '~', '~' :: cs =>
          readSet m fuel { left := some s.height, begins := false } outer cs
        | c, cs => (m.range? (c :: cs)).bind fun cs => readSet m fuel (s.add 0) outer cs

end TieredAdmission.Logging

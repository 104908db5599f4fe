import TieredAdmission.Logging.Pattern.Bracket
import TieredAdmission.Logging.Pattern.Group

/-!
# Patterns

A pattern is a regular expression: characters, sets of them and groups, in rows, with operators that
repeat what stands before them and bars between alternatives. `isPattern` says which texts are
patterns that can be used. Those that cannot are badly formed, ask for a property of characters, are
nested too deeply, or match bytes that are no text. Counts of repetitions are not among what can be
written, since the values of fields hold no closing brace.
-/

namespace TieredAdmission.Logging

/-- A group that is being read; the pattern as a whole is one. -/
structure OpenGroup where
  /-- The mode that is in force again after the group. -/
  outside : PatternMode := {}
  /-- The alternatives read so far. -/
  alternatives : PatternRow := {}
  /-- The parts of the alternative that is being read. -/
  parts : PatternRow := {}
  /-- The height of the last part, when it can be repeated. -/
  last : Option Nat := none
deriving DecidableEq, Repr

namespace OpenGroup

/-- The group with one more part. -/
def add (g : OpenGroup) (height : Nat) : OpenGroup :=
  { g with parts := g.parts.add height, last := some height }

/-- The group with one more part that cannot be repeated. -/
def addFixed (g : OpenGroup) : OpenGroup := { g with parts := g.parts.add 0, last := none }

/-- The group with its last part repeated. -/
def repeatLast? (g : OpenGroup) : Option OpenGroup :=
  g.last.map fun h =>
    { g with parts := ⟨g.parts.count, max g.parts.tallest (h + 1)⟩, last := some (h + 1) }

def alternate (g : OpenGroup) : OpenGroup :=
  { g with alternatives := g.alternatives.add g.parts.height, parts := {}, last := none }

def height (g : OpenGroup) : Nat := (g.alternatives.add g.parts.height).height

end OpenGroup

def maxPatternHeight : Nat := 250

/-- A pattern that is being read. -/
structure PatternReader where
  mode : PatternMode := {}
  /-- The innermost group. -/
  group : OpenGroup := {}
  /-- The groups around it, innermost first. -/
  outer : List OpenGroup := []
  /-- The names of the groups so far. -/
  names : List String := []
deriving Repr

namespace PatternReader

/-- Reads one more part of a height. -/
def add (r : PatternReader) (height : Nat) : PatternReader := { r with group := r.group.add height }

/-- Begins a group or switches the mode. -/
def enter (r : PatternReader) : GroupHead → Option PatternReader
  | .mode mode => some { r with mode, group := r.group.addFixed }
  | .group mode name =>
    if (name.elim false r.names.contains) then none
    else
      some
        { mode
          group := { outside := r.mode }
          outer := r.group :: r.outer
          names := name.toList ++ r.names }

def leave? (r : PatternReader) : Option PatternReader :=
  match r.outer with
  | [] => none
  | g :: outer =>
    some { r with mode := r.group.outside, group := g.add (r.group.height + 1), outer }

/-- Reads what begins with a character, and gives back what is left. -/
def step (r : PatternReader) (c : Char) (cs : List Char) : Option (PatternReader × List Char) :=
  if c == '(' then do
    let (head, cs) ← readGroupHead r.mode cs
    return (← r.enter head, cs)
  else if c == ')' then r.leave?.map fun r => (r, cs)
  else if c == '|' then some ({ r with group := r.group.alternate }, cs)
  else if c == '[' then do
    let cs ← r.mode.openSet? cs
    let (height, cs) ← readSet r.mode (cs.length + 1) {} [] cs
    return (r.add height, cs)
  else if c == '*' || c == '+' || c == '?' then do
    let group ← r.group.repeatLast?
    return ({ r with group }, if cs.head? = some '?' then cs.drop 1 else cs)
  else if c == '\x7b' then none
  else if c == '\\' then do
    let (e, cs) ← readEscape r.mode cs
    if r.mode.allows e then return (r.add 0, cs) else none
  else if c == '.' then if r.mode.unicode then some (r.add 0, cs) else none
  else if c == '^' || c == '$' then some (r.add 0, cs)
  else if r.mode.allowsLiteral then some (r.add 0, cs)
  else none

/-- Every group has ended and the pattern is not too high. -/
def isComplete (r : PatternReader) : Bool :=
  r.outer.isEmpty && decide (r.group.height ≤ maxPatternHeight)

/-- Reads the rest of a pattern within `fuel` steps. -/
def accepts (r : PatternReader) : Nat → List Char → Bool
  | 0, _ => false
  | fuel + 1, cs =>
    match r.mode.skip cs with
    | [] => r.isComplete
    | c :: cs => (r.step c cs).elim false fun (r, cs) => r.accepts fuel cs

end PatternReader

def isPattern (cs : List Char) : Bool := ({} : PatternReader).accepts (cs.length + 1) cs

example : isPattern "a|(b+)?[c-e]$".toList ∧ ¬ isPattern "(".toList ∧ ¬ isPattern "*".toList := by
  decide +kernel

end TieredAdmission.Logging

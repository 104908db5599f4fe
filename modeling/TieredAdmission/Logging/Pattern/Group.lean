import TieredAdmission.Logging.Pattern.Basic
import TieredAdmission.Text.Alphanumeric

/-!
# Groups in patterns

What the parenthesis of a group is followed by: a name, or letters that switch the mode, for the
group or for what is left of the group around it. Letters after a dash switch something off.
-/

namespace TieredAdmission.Logging

inductive GroupHead where
  /-- A group, the mode within it and its name. -/
  | group (mode : PatternMode) (name : Option String)
  /-- No group: the mode from here to the end of the group around it. -/
  | mode (mode : PatternMode)
deriving DecidableEq, Repr

def modeLetters : List Char := ['i', 'm', 's', 'U', 'u', 'R', 'x']

/-- The mode with what a letter stands for switched. -/
def PatternMode.switch (m : PatternMode) (letter : Char) (on : Bool) : PatternMode :=
  if letter = 'i' then { m with foldsCase := on }
  else if letter = 'u' then { m with unicode := on }
  else if letter = 'x' then { m with spaced := on }
  else m

/-- Reads the letters that switch the mode. No letter comes twice, one dash may stand among them but
not at their end, and there has to be a letter where no group follows. `seen` holds what was read,
the last first. -/
def readModeLetters (m : PatternMode) (seen : List Char) :
    List Char → Option (GroupHead × List Char)
  | [] => none
  | c :: cs =>
    if c == ':' then if seen.head? = some '-' then none else some (.group m none, cs)
    else if c == ')' then
      if seen.head?.getD '-' = '-' then none else some (.mode m, cs)
    else if seen.contains c then none
    else if c == '-' then readModeLetters m (c :: seen) cs
    else if modeLetters.contains c then
      readModeLetters (m.switch c (!seen.contains '-')) (c :: seen) cs
    else none

/-- A character can stand in the name of a group after its first one. -/
def isGroupNameChar (c : Char) : Bool :=
  c == '_' || c == '.' || c == '[' || c == ']' || Text.isAlphanumeric c

def isGroupName : List Char → Bool
  | [] => false
  | c :: cs => (c == '_' || Text.isAlphabetic c) && cs.all isGroupNameChar

def readGroupName (m : PatternMode) (cs : List Char) : Option (GroupHead × List Char) :=
  match cs.dropWhile (· != '>') with
  | '>' :: rest =>
    let name := cs.takeWhile (· != '>')
    if isGroupName name then some (.group m (some (String.ofList name)), rest) else none
  | _ => none

/-- Reads how a group begins, after its parenthesis. -/
def readGroupHead (m : PatternMode) (cs : List Char) : Option (GroupHead × List Char) :=
  match m.skip cs with
  | '?' :: 'P' :: '<' :: cs | '?' :: '<' :: cs => readGroupName m cs
  | '?' :: cs => readModeLetters m [] cs
  | cs => some (.group m none, cs)

end TieredAdmission.Logging

import TieredAdmission.Decimal.Literal
import TieredAdmission.Logging.Pattern

/-!
# Log filters

A filter is a list of directives between commas. A directive is a level, or a target with an
optional span in brackets, the span with an optional field in braces, and an optional level after an
equals sign. The value of a field is a number or a pattern. `filterFault?` says why a text is no
filter.

Blanks around a directive do not count for its form, but its parts are taken from as many bytes into
the directive with them, so blanks in front shift the parts.
-/

namespace TieredAdmission.Logging

def levelWords : List String := ["error", "warn", "info", "debug", "trace", "off"]

/-- A level: a word in any case, a number up to five, or nothing. -/
def isLevel (cs : List Char) : Bool :=
  cs.isEmpty || levelWords.contains (Text.lower (String.ofList cs)) || (Decimal.count? 6 cs).isSome

/-- A character with which a target begins. -/
def beginsTarget (c : Char) : Bool :=
  Text.isAlphanumeric c || c == '-' || c == ':' || c == '_'

/-- The value of a field: a number or a pattern. -/
def isFieldValue (cs : List Char) : Bool :=
  (Decimal.float? (String.ofList cs)).isSome || isPattern cs

/-- A field: a name that may be followed by an equals sign and a value. A second equals sign ends
the value. -/
def isField (cs : List Char) : Bool :=
  match cs.dropWhile (· != '=') with
  | [] => !cs.isEmpty
  | _ :: rest => isFieldValue (rest.takeWhile (· != '='))

inductive FilterFault where
  /-- A directive is badly formed. -/
  | refused
  /-- A part of a directive would begin or end within a character. -/
  | cutsCharacter
deriving DecidableEq, Repr

/-- Cuts a text after so many bytes, unless that is within a character. -/
def cutBytes? : Nat → List Char → Option (List Char × List Char)
  | 0, cs => some ([], cs)
  | _ + 1, [] => none
  | n + 1, c :: cs =>
    if n + 1 < c.utf8Size then none
    else (cutBytes? (n + 1 - c.utf8Size) cs).map fun (before, after) => (c :: before, after)

/-- The part of a text between two numbers of bytes. -/
def slice (text : List Char) (first last : Nat) : Except FilterFault (List Char) :=
  match cutBytes? last text with
  | none => .error .cutsCharacter
  | some (before, _) =>
    match cutBytes? first before with
    | none => .error .cutsCharacter
    | some (_, part) => .ok part

/-- How far a directive has been read; a part that is being read has the number of bytes before
it. -/
inductive DirectiveState where
  | start
  | levelOrTarget
  | span (begins : Nat)
  | field (begins : Nat)
  | fields
  /-- After the span. -/
  | target
  | level (begins : Nat)
deriving DecidableEq, Repr

namespace DirectiveState

/-- The state after a character, which has so many bytes before it. -/
def step (text : List Char) (i : Nat) (c : Char) :
    DirectiveState → Except FilterFault DirectiveState
  | start =>
    if c == '[' then .ok (span (i + 1))
    else if beginsTarget c then .ok levelOrTarget
    else .error .refused
  | levelOrTarget =>
    if c == '=' then (slice text 0 i).map fun _ => level (i + 1)
    else if c == '[' then (slice text 0 i).map fun _ => span (i + 1)
    else .ok levelOrTarget
  | span b =>
    if c == ']' then (slice text b i).map fun _ => target
    else if c == '\x7b' then (slice text b i).map fun _ => field (i + 1)
    else .ok (span b)
  | field b =>
    if c == '\x7d' then do
      if isField (← slice text b i) then return fields else throw .refused
    else .ok (field b)
  | fields => if c == ']' then .ok target else .error .refused
  | target => if c == '=' then .ok (level (i + 1)) else .error .refused
  | level b => .ok (level b)

def run (text : List Char) (s : DirectiveState) :
    Nat → List Char → Except FilterFault DirectiveState
  | _, [] => .ok s
  | i, c :: cs =>
    match s.step text i c with
    | .error fault => .error fault
    | .ok s => run text s (i + c.utf8Size) cs

end DirectiveState

/-- Why a text is no directive, if it is none. -/
def directiveFault? (text : List Char) : Option FilterFault :=
  match DirectiveState.start.run text 0 (Text.trimList text) with
  | .error fault => some fault
  | .ok .levelOrTarget | .ok .target => none
  | .ok (.level b) =>
    match cutBytes? b text with
    | none => some .cutsCharacter
    | some (_, word) => if isLevel word then none else some .refused
  | .ok _ => some .refused

/-- Why a text is no filter, if it is none. Empty directives do not count, and the first fault is
the one that is found. -/
def filterFault? (s : String) : Option FilterFault :=
  (s.splitOn ",").findSome? fun d => if d.isEmpty then none else directiveFault? d.toList

end TieredAdmission.Logging

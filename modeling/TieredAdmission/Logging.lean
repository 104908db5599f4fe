import TieredAdmission.Logging.Filter
import TieredAdmission.Files

/-!
# Logging

The configuration of logging and the ways in which setting it up fails: a filter that is none, and a
log file that cannot be opened. The filter is looked at first.
-/

namespace TieredAdmission

inductive LogFormat where
  | json
  | pretty
deriving DecidableEq, Repr

namespace LogFormat

def name : LogFormat → String
  | json => "json"
  | pretty => "pretty"

def ofName? (s : String) : Option LogFormat := [json, pretty].find? fun f => f.name == s

/-- Reads a format; a word that is no format is returned as it was looked up. -/
def parse (s : String) : Except String LogFormat :=
  match Text.word s with
  | "json" => .ok json
  | "pretty" | "text" => .ok pretty
  | other => .error other

def unknownMessage (word : String) : String := "Invalid log format: " ++ word

end LogFormat

structure LogConfig where
  format : LogFormat := .json
  /-- The filter of what is logged. -/
  level : String := "info"
  /-- The log file; without one the log goes to the standard error stream. -/
  outputPath : Option String := none
deriving DecidableEq, Repr

inductive LogError where
  | invalidFilter (fault : Logging.FilterFault)
  | fileOpen (text : String)
deriving DecidableEq, Repr

/-- The wording of a failure; that of a filter is not settled beyond its kind. -/
def LogError.message : LogError → String
  | invalidFilter _ => "Invalid log filter"
  | fileOpen text => "Failed to open log file: " ++ text

namespace LogConfig

/-- Why the log file cannot be opened, if it cannot. Its directory is made first. -/
def sinkError? (fs : FileSystem) (path : String) : Option LogError :=
  match fs.ensureAll ((parentPath? path).getD "") with
  | .error fault => some (.fileOpen fault.message)
  | .ok fs => (fs.appendFault? path).map fun fault => .fileOpen (path ++ ": " ++ fault.message)

def error? (c : LogConfig) (fs : FileSystem) : Option LogError :=
  match Logging.filterFault? c.level with
  | some fault => some (.invalidFilter fault)
  | none => c.outputPath.bind (sinkError? fs)

end LogConfig

end TieredAdmission

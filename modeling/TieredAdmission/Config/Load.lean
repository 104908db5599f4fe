import TieredAdmission.Config.Environment
import TieredAdmission.Config.Reading
import TieredAdmission.Toml.Document
import TieredAdmission.Files

/-!
# Loading the configuration

The configuration is the one in the file that the environment names, or the default one, with the
settings of the environment over it and every setting within its bounds. Only a file that cannot be
read or is no configuration makes loading fail.
-/

namespace TieredAdmission

inductive ConfigError where
  | unreadable (path : String) (fault : FileFault)
  | invalid (path : String)
deriving DecidableEq, Repr

/-- The wording of a failure. What is wrong with the contents of a file is left open. -/
def ConfigError.message : ConfigError → String
  | unreadable path fault => "failed to read config file " ++ path ++ ": " ++ fault.message
  | invalid path => "invalid config file " ++ path ++ ": "

/-- The path of the configuration file, unless the variable is unset, is no text or is blank. -/
def Environment.configPath? (env : Environment) : Option String :=
  (env.text? Variable.configPath).bind fun s => nonempty? (Text.trim s)

namespace GatewayConfig

def ofText? (text : String) : Option GatewayConfig := (Toml.read? text).bind (ofDatum? .toml)

def ofFile (fs : FileSystem) (path : String) : Except ConfigError GatewayConfig :=
  match fs.read path with
  | .error fault => .error (.unreadable path fault)
  | .ok content =>
    match String.fromUTF8? content with
    | none => .error (.unreadable path .notText)
    | some text =>
      match ofText? text with
      | none => .error (.invalid path)
      | some c => .ok c

/-- The configuration before the environment is laid over it. -/
def base (env : Environment) (fs : FileSystem) : Except ConfigError GatewayConfig :=
  match env.configPath? with
  | none => .ok {}
  | some path => ofFile fs path

/-- The configuration in effect. -/
def load (env : Environment) (fs : FileSystem) : Except ConfigError GatewayConfig :=
  (base env fs).map fun c => (c.overlay env).sanitized

end GatewayConfig

end TieredAdmission

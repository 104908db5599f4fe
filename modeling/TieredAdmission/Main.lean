import TieredAdmission.CommandLine
import TieredAdmission.Simulation.Chance

/-!
# The program

Collects the surroundings of a run, runs the command line on them and prints what it leaves.
-/

open TieredAdmission

def readEnvironment : IO Environment := do
  let mut found : List (String × ByteArray) := []
  for name in Variable.configPath :: Variable.all.map Variable.name do
    match ← IO.getEnv name with
    | some value => found := (name, value.toUTF8) :: found
    | none => pure ()
  let values := found
  return ⟨fun name => values.lookup name⟩

def readNode (place : FilePlace) : IO (Option FileNode) := do
  let path := "/" ++ "/".intercalate place
  if ← (System.mkFilePath [path]).isDir then return some .directory
  try
    return some (.file (← IO.FS.readBinFile path))
  catch
    | .noFileOrDirectory .. => return none
    | .permissionDenied .. => return some .forbidden
    | _ => return none

/-- The file system without any file, seen from the working directory. -/
def readWorkingDirectory : IO FileSystem := do
  return ⟨fun _ => none, pathNames (← IO.FS.realPath ".").toString⟩

/-- The file system with what stands on the way along a path. -/
def readAlong (fs : FileSystem) (path : String) : IO FileSystem := do
  let places := FileSystem.waypoints (fs.start path) (pathNames path)
  let found ← places.mapM fun place => return (place, ← readNode place)
  return { fs with node? := fun place => ((found.lookup place).getD (fs.node? place)) }

/-- The places that a run looks at: those of the configuration file, and then those of the log
file. -/
def readFiles (env : Environment) : IO FileSystem := do
  let fs ← readWorkingDirectory
  let fs ← match env.configPath? with
    | none => pure fs
    | some path => readAlong fs path
  match GatewayConfig.load env fs with
  | .error _ => return fs
  | .ok c =>
    match c.logging.outputPath with
    | none => return fs
    | some path => readAlong fs path

def main (args : List String) : IO UInt32 := do
  let environment ← readEnvironment
  let files ← readFiles environment
  let seed ← IO.monoNanosNow
  let output := CommandLine.run ⟨environment, files, drawsFrom seed⟩ args
  IO.print output.stdout
  IO.eprint output.stderr
  return output.code.toUInt32

/-!
# Files

A snapshot of a file system, as far as configurations and log files need one: what stands at which
place, and the three operations of reading a file, of making a directory with its parents and of
opening a file for appending. Each fails for the reason that a system call would give. A path is
followed name by name, so every name on the way, even one that `..` leaves again, has to lead to a
directory; a name counts as too long only where it is looked up.
-/

namespace TieredAdmission

inductive FileFault where
  | notFound
  | alreadyExists
  | notDirectory
  | isDirectory
  | nameTooLong
  | permissionDenied
  | notPermitted
  /-- The path holds a character that no path can hold. -/
  | nulInPath
  /-- The file is no text. -/
  | notText
deriving DecidableEq, Repr

def FileFault.message : FileFault → String
  | notFound => "No such file or directory (os error 2)"
  | alreadyExists => "File exists (os error 17)"
  | notDirectory => "Not a directory (os error 20)"
  | isDirectory => "Is a directory (os error 21)"
  | permissionDenied => "Permission denied (os error 13)"
  | notPermitted => "Operation not permitted (os error 1)"
  | nameTooLong => "File name too long (os error 36)"
  | nulInPath => "file name contained an unexpected NUL byte"
  | notText => "stream did not contain valid UTF-8"

/-- What stands at a place. -/
inductive FileNode where
  | file (content : ByteArray)
  | directory
  /-- A directory that knows all its names: nothing else is found or made there. -/
  | sealed
  /-- A directory to which nothing can be added. -/
  | frozen
  /-- A file that can neither be read nor written. -/
  | forbidden

def FileNode.isFile : FileNode → Bool
  | file _ | forbidden => true
  | directory | sealed | frozen => false

/-- A place: the names on the way to it from the root, without `.` and `..`. -/
abbrev FilePlace := List String

/-- The place to which a name leads from a directory. The root is its own parent. -/
def FilePlace.step (place : FilePlace) (name : String) : FilePlace :=
  if name = "." then place else if name = ".." then place.dropLast else place ++ [name]

/-- The name stands for a directory whatever the file system. -/
def isDirectoryMark (name : String) : Bool := name == "." || name == ".."

/-- The names in a path, outermost first. Slashes in a row count as one. -/
def pathNames (path : String) : List String := (path.splitOn "/").filter (· != "")

/-- Names in reverse without the empty names and single dots at the end of the path, except for the
first name. -/
def trimPathEnd : List String → List String
  | name :: outer :: names =>
    if name = "" ∨ name = "." then trimPathEnd (outer :: names) else name :: outer :: names
  | names => names

/-- The path without its last name; none for the root and for the empty path. -/
def parentPath? (path : String) : Option String :=
  match trimPathEnd (path.splitOn "/").reverse with
  | [] => none
  | [name] => if name = "" then none else some ""
  | _ :: names =>
    match trimPathEnd names with
    | [""] => some "/"
    | names => some ("/".intercalate names.reverse)

/-- Why a path cannot be passed to a system call, if it cannot. -/
def pathFault? (path : String) : Option FileFault :=
  if path.toList.any (· == '\x00') then some .nulInPath
  else if path.utf8ByteSize ≥ 4096 then some .nameTooLong
  else if path = "" then some .notFound
  else none

/-- A file system: what stands at a place, and the place from which relative paths lead. -/
structure FileSystem where
  node? : FilePlace → Option FileNode
  workingDirectory : FilePlace := []

namespace FileSystem

/-- The place from which a path leads. -/
def start (fs : FileSystem) (path : String) : FilePlace :=
  if path.startsWith "/" then [] else fs.workingDirectory

/-- The places on the way along names, the one to begin with and the last one among them. -/
def waypoints (place : FilePlace) : List String → List FilePlace
  | [] => [place]
  | name :: names => place :: waypoints (place.step name) names

/-- Why a name that is not in a directory cannot be added to it, if it cannot; `refusal` is what a
directory says to which nothing can be added. -/
def vacancyFault? (fs : FileSystem) (directory : FilePlace) (name : String)
    (refusal : FileFault) : Option FileFault :=
  match fs.node? directory with
  | some .sealed => some .notFound
  | some .frozen => some refusal
  | _ => if name.utf8ByteSize > 255 then some .nameTooLong else none

/-- What a name in a directory leads to. -/
def lookUp (fs : FileSystem) (directory : FilePlace) (name : String) : Except FileFault FileNode :=
  if isDirectoryMark name then .ok .directory
  else
    match fs.node? (directory.step name) with
    | some node => .ok node
    | none => .error ((fs.vacancyFault? directory name .notFound).getD .notFound)

/-- Follows names that all have to lead to directories. -/
def follow (fs : FileSystem) (place : FilePlace) : List String → Except FileFault FilePlace
  | [] => .ok place
  | name :: names =>
    match fs.lookUp place name with
    | .error fault => .error fault
    | .ok node => if node.isFile then .error .notDirectory else fs.follow (place.step name) names

def resolve (fs : FileSystem) (path : String) : Except FileFault (Option (FilePlace × String)) :=
  match pathFault? path with
  | some fault => .error fault
  | none =>
    let names := pathNames path
    match names.getLast? with
    | none => .ok none
    | some last => (fs.follow (fs.start path) names.dropLast).map fun place => some (place, last)

def isDirectory (fs : FileSystem) (path : String) : Bool :=
  match fs.resolve path with
  | .error _ => false
  | .ok none => true
  | .ok (some (place, name)) =>
    match fs.lookUp place name with
    | .error _ => false
    | .ok node => !node.isFile

def read (fs : FileSystem) (path : String) : Except FileFault ByteArray :=
  match fs.resolve path with
  | .error fault => .error fault
  | .ok none => .error .isDirectory
  | .ok (some (place, name)) =>
    match fs.lookUp place name with
    | .error fault => .error fault
    | .ok .directory | .ok .sealed | .ok .frozen => .error .isDirectory
    | .ok (.file content) => if path.endsWith "/" then .error .notDirectory else .ok content
    | .ok .forbidden => .error (if path.endsWith "/" then .notDirectory else .permissionDenied)

def make (fs : FileSystem) (path : String) : Except FileFault FileSystem :=
  match fs.resolve path with
  | .error fault => .error fault
  | .ok none => .error .alreadyExists
  | .ok (some (place, name)) =>
    if isDirectoryMark name || (fs.node? (place.step name)).isSome then .error .alreadyExists
    else
      match fs.vacancyFault? place name .notPermitted with
      | some fault => .error fault
      | none =>
        .ok { fs with
          node? := fun p => if p = place.step name then some .directory else fs.node? p }

/-- Makes a directory whose parents are there; one that is there already will do. -/
def ensure (fs : FileSystem) (path : String) : Except FileFault FileSystem :=
  match fs.make path with
  | .ok fs => .ok fs
  | .error fault => if fs.isDirectory path then .ok fs else .error fault

/-- Makes a directory after its missing parents, at most `fuel` of them. The empty path is there
already. -/
def ensureWithin (fs : FileSystem) : Nat → String → Except FileFault FileSystem
  | 0, _ => .ok fs
  | fuel + 1, path =>
    if path = "" then .ok fs
    else
      match fs.ensure path with
      | .error .notFound =>
        match parentPath? path with
        | none => .error .notFound
        | some parent =>
          match fs.ensureWithin fuel parent with
          | .error fault => .error fault
          | .ok fs => fs.ensure path
      | result => result

/-- Makes a directory after its missing parents. -/
def ensureAll (fs : FileSystem) (path : String) : Except FileFault FileSystem :=
  fs.ensureWithin (path.utf8ByteSize + 1) path

/-- Why a file cannot be opened for appending, if it cannot. A file that is not there is made, and
a path that says that it leads to a directory is none of a file. -/
def appendFault? (fs : FileSystem) (path : String) : Option FileFault :=
  match fs.resolve path with
  | .error fault => some fault
  | .ok none => some .isDirectory
  | .ok (some (place, name)) =>
    if isDirectoryMark name || path.endsWith "/" then some .isDirectory
    else
      match fs.node? (place.step name) with
      | some (.file _) => none
      | some .forbidden => some .permissionDenied
      | some .directory | some .sealed | some .frozen => some .isDirectory
      | none => fs.vacancyFault? place name .permissionDenied

end FileSystem

end TieredAdmission

import VersionGate.CommandLine.Fault
import VersionGate.CommandLine.Path

/-!
# Files

What the program does with files, in any setting: it asks what stands at a path, reads and writes.

`Files` are such a setting in memory: text files by the names that lead to them from the working
directory. A directory is there if a file is in it. What is above the working directory holds
nothing, and the root has the directories that every root has, with nothing in them but the null
device, which takes every text and keeps none.
-/

namespace VersionGate.CommandLine

/-- What stands at a path. -/
inductive FileStatus where
  | nothing
  | file
  | directory
  /-- The path has a null character in it, so one cannot ask. -/
  | unnamed
  deriving DecidableEq, Repr

/-- A setting in which there are files. -/
structure FileSystem (m : Type → Type) where
  status : String → m FileStatus
  read : String → m (Except FileFault String)
  write : String → String → m (Except FileFault Unit)

/-- Text files in memory, by the names on the way to them. -/
structure Files where
  entries : List (List String × String) := []
  deriving DecidableEq, Repr

namespace Files

/-- The place of the null device. -/
def nullDevice : List String := ["/", "dev", "null"]

/-- The text of the file at a place. -/
def text? (files : Files) (place : List String) : Option String :=
  if place = nullDevice then some "" else files.entries.lookup place

/-- Whether a place leads up from the working directory, or nowhere. -/
def isAbove (place : List String) : Bool := place.all (· == "..")

/-- The place of the root. -/
def root : List String := ["/"]

/-- The names of the directories that every root has. -/
def rootDirectories : List String :=
  ["bin", "boot", "dev", "etc", "home", "lib", "media", "mnt", "opt", "proc", "root", "run", "sbin",
   "srv", "sys", "tmp", "usr", "var"]

/-- Whether there is a directory at a place. -/
def isDirectory (files : Files) (place : List String) : Bool :=
  isAbove place || place == root || (rootDirectories.map (["/", ·])).contains place
    || files.entries.any fun (other, _) => place.isPrefixOf other && place != other

/-- What is at a place. -/
def statusOf (files : Files) (place : List String) : FileStatus :=
  if files.isDirectory place then .directory
  else if (files.text? place).isSome then .file
  else .nothing

/-- The place above a directory. -/
def above (place : List String) : List String :=
  if isAbove place then place ++ [".."] else if place == root then root else place.dropLast

/-- The most bytes in a name. -/
def maxName : Nat := 255

/-- The most bytes in a path. -/
def maxPath : Nat := 4095

/-- Follows names from a place on. All but the last thing on the way have to be directories. -/
def follow (files : Files) (place : List String) : List String → Except FileFault (List String)
  | [] => .ok place
  | name :: names =>
    match files.statusOf place with
    | .nothing | .unnamed => .error .noFile
    | .file => .error .noDirectory
    | .directory =>
      if maxName < Text.byteSize name then .error .tooLong
      else if name = "" || name = "." then files.follow place names
      else if name = ".." then files.follow (above place) names
      else files.follow (place ++ [name]) names

/-- The place that a path leads to. -/
def locate (files : Files) (path : String) : Except FileFault (List String) :=
  if path = "" then .error .noFile
  else if maxPath < Text.byteSize path then .error .tooLong
  else files.follow (if Path.root path = "" then [] else root) (Path.parts path)

/-- What stands at a path. -/
def status (files : Files) (path : String) : FileStatus :=
  if path.toList.contains '\x00' then .unnamed
  else match files.locate path with
    | .ok place => files.statusOf place
    | .error _ => .nothing

/-- Reads the file at a path. -/
def read (files : Files) (path : String) : Except FileFault String := do
  let place ← files.locate path
  match files.statusOf place, files.text? place with
  | .directory, _ => .error .directory
  | _, some text => .ok text
  | _, none => .error .noFile

/-- Puts a text at a place. -/
def put (text : String) (place : List String) : List (List String × String) →
    List (List String × String)
  | [] => [(place, text)]
  | (other, old) :: rest =>
    if other = place then (place, text) :: rest else (other, old) :: put text place rest

/-- Writes the file at a path. -/
def write (files : Files) (path text : String) : Except FileFault Files := do
  let place ← files.locate path
  if files.statusOf place = .directory then .error .directory
  else if place = nullDevice then .ok files
  else .ok ⟨put text place files.entries⟩

/-- Files with the given paths and texts. -/
def ofList (texts : List (String × String)) : Files :=
  ⟨texts.foldl (fun entries (path, text) => put text (Path.names path) entries) []⟩

/-- The setting in which there are files in memory. -/
def system : FileSystem (StateM Files) where
  status path := do return (← get).status path
  read path := do return (← get).read path
  write path text := do
    match (← get).write path text with
    | .error fault => return .error fault
    | .ok files =>
      set files
      return .ok ()

end Files

end VersionGate.CommandLine

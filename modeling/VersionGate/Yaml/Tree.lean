import VersionGate.Yaml.Tag

/-!
# Document trees

The nodes of a document as they are written, with their tags settled. A node may have an anchor, and
an alias stands for the node with its anchor. An alias may stand inside that node, so a tree can
describe data that contains itself.
-/

namespace VersionGate.Yaml

/-- A node of a document as it is written. -/
inductive Tree where
  | reference (name : String)
  | scalar (anchor : Option String) (tag : Tag) (text : String)
  | list (anchor : Option String) (tag : Tag) (items : List Tree)
  | map (anchor : Option String) (tag : Tag) (fields : List (Tree × Tree))
  deriving Repr

/-- The node that is left out where one is expected. -/
def Tree.empty : Tree := scalar none .null ""

end VersionGate.Yaml

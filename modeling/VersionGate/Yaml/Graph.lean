import VersionGate.Yaml.Fault
import VersionGate.Yaml.Tree

/-!
# Document graphs

The nodes of a document by number, in the order in which they are written: the root has number zero.
The parts of a node are given by their numbers, and an alias is the number of the node with its
anchor. Hence a node is the same one wherever it is a part.
-/

namespace VersionGate.Yaml

/-- A node of a document with its parts by number. -/
inductive Node where
  | scalar (tag : Tag) (text : String)
  | list (tag : Tag) (items : List Nat)
  | map (tag : Tag) (fields : List (Nat × Nat))
  deriving DecidableEq, Repr

namespace Node

/-- The tag of a node. -/
def tag : Node → Tag
  | scalar tag _ | list tag _ | map tag _ => tag

/-- The node with another tag. -/
def withTag (tag : Tag) : Node → Node
  | scalar _ text => .scalar tag text
  | list _ items => .list tag items
  | map _ fields => .map tag fields

/-- The map with other fields. -/
def withFields (fields : List (Nat × Nat)) : Node → Node
  | map tag _ => .map tag fields
  | node => node

/-- The fields of a map. -/
def fields : Node → List (Nat × Nat)
  | map _ fields => fields
  | _ => []

end Node

/-- The nodes of a document by number. -/
abbrev Graph := Array Node

namespace Graph

/-- The tag of a node. -/
def tag? (g : Graph) (n : Nat) : Option Tag := g[n]?.map Node.tag

/-- The fields of a map. -/
def fields (g : Graph) (n : Nat) : List (Nat × Nat) := (g[n]?.map Node.fields).getD []

/-- The text of a node that should be a scalar: of a map it is the one under the key for its value,
if there is one. A walk through more than `fuel` nodes has no end. -/
def scalarText (g : Graph) : Nat → Nat → Except Fault String
  | 0, _ => .error .endless
  | fuel + 1, n =>
    match g[n]? with
    | some (.scalar _ text) => .ok text
    | some (.map _ fields) =>
      match fields.find? fun (k, _) => g.tag? k == some .value with
      | some (_, v) => scalarText g fuel v
      | none => .error .form
    | _ => .error .form

/-- The text of a node that should be a scalar. A walk through more nodes than there are comes to
one of them again. -/
def text (g : Graph) (n : Nat) : Except Fault String := g.scalarText (g.size + 1) n

end Graph

/-- The nodes that have been numbered, and the numbers of those with an anchor. -/
structure Numbering where
  nodes : Graph := #[]
  anchors : List (String × Nat) := []
  deriving Repr

namespace Numbering

/-- Adds a node. -/
def add (s : Numbering) (anchor : Option String) (node : Node) : Numbering :=
  { nodes := s.nodes.push node
    anchors := (anchor.map fun name => (name, s.nodes.size)).toList ++ s.anchors }

/-- Replaces a node. -/
def set (s : Numbering) (n : Nat) (node : Node) : Numbering :=
  { s with nodes := s.nodes.setIfInBounds n node }

mutual

/-- Adds the nodes of a tree, and gives the number of its root. -/
def addTree (s : Numbering) : Tree → Numbering × Nat
  | .reference name => (s, (s.anchors.lookup name).getD 0)
  | .scalar anchor tag text => (s.add anchor (.scalar tag text), s.nodes.size)
  | .list anchor tag items =>
    let n := s.nodes.size
    let (s, items) := addItems (s.add anchor (.list tag [])) items
    (s.set n (.list tag items), n)
  | .map anchor tag fields =>
    let n := s.nodes.size
    let (s, fields) := addFields (s.add anchor (.map tag [])) fields
    (s.set n (.map tag fields), n)

/-- Adds the nodes of items. -/
def addItems (s : Numbering) : List Tree → Numbering × List Nat
  | [] => (s, [])
  | t :: ts =>
    let (s, n) := addTree s t
    let (s, ns) := addItems s ts
    (s, n :: ns)

/-- Adds the nodes of fields, that of a key before that of its value. -/
def addFields (s : Numbering) : List (Tree × Tree) → Numbering × List (Nat × Nat)
  | [] => (s, [])
  | (k, v) :: rest =>
    let (s, k) := addTree s k
    let (s, v) := addTree s v
    let (s, fields) := addFields s rest
    (s, (k, v) :: fields)

end

end Numbering

/-- The graph of a document. -/
def Graph.ofTree (t : Tree) : Graph := (Numbering.addTree {} t).1.nodes

end VersionGate.Yaml

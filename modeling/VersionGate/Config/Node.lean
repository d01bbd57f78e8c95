/-!
# Configuration trees

A node has a name, which may be missing, values, and child nodes, both in a fixed order. Entries are
told apart by their place and not by their name: names may repeat. A node inside a tree is addressed
by the child indices on the way from the root, and `at?_modifyAt` says what changing it does.
-/

namespace VersionGate.Config

/-- A value of a node. -/
structure Value where
  name : Option String
  text : String := ""
  deriving DecidableEq, Repr

/-- A node of a configuration tree. -/
structure Node where
  name : Option String
  values : List Value := []
  nodes : List Node := []
  deriving Repr

namespace Node

/-- Appends a value. -/
def addValue (n : Node) (v : Value) : Node := { n with values := n.values ++ [v] }

/-- Appends a child. -/
def addNode (n child : Node) : Node := { n with nodes := n.nodes ++ [child] }

/-- The text of the first value with the given name. -/
def getValue? (n : Node) (name : Option String) : Option String :=
  (n.values.find? (·.name == name)).map (·.text)

/-- The indices of the children with the given name, in order. -/
def indicesOf (n : Node) (name : Option String) : List Nat :=
  (n.nodes.zipIdx.filter (·.1.name == name)).map (·.2)

/-- The first child with the given name, with its index. -/
def getNode? (n : Node) (name : Option String) : Option (Nat × Node) :=
  (n.nodes.zipIdx.find? (·.1.name == name)).map fun (child, i) => (i, child)

/-- The node at an address. -/
def at? (n : Node) : List Nat → Option Node
  | [] => some n
  | i :: is =>
    match n.nodes[i]? with
    | none => none
    | some child => child.at? is

/-- Applies `f` to the node at an address; a tree without such a node stays as it is. -/
def modifyAt (f : Node → Node) (n : Node) : List Nat → Node
  | [] => f n
  | i :: is => { n with nodes := n.nodes.modify i fun child => child.modifyAt f is }

/-- Looking up the address that was changed finds what was there, changed. -/
theorem at?_modifyAt (f : Node → Node) (n : Node) (address : List Nat) :
    (n.modifyAt f address).at? address = (n.at? address).map f := by
  induction address generalizing n with
  | nil => rfl
  | cons i is ih =>
    simp only [modifyAt, at?, List.getElem?_modify_eq]
    cases n.nodes[i]? with
    | none => rfl
    | some child => exact ih child

/-- The names on the way from a node to the one at an address, both included. -/
def namesTo (n : Node) : List Nat → List (Option String)
  | [] => [n.name]
  | i :: is =>
    n.name :: match n.nodes[i]? with
      | none => []
      | some child => child.namesTo is

end Node

/-- Names with slashes between them; a missing name gives an empty segment. -/
def pathText (names : List (Option String)) : String :=
  "/".intercalate (names.map (·.getD ""))

end VersionGate.Config

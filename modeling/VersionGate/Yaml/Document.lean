import VersionGate.Data.SetOrder
import VersionGate.Data.Store
import VersionGate.Yaml.Merge
import VersionGate.Yaml.ScalarValue
import VersionGate.Yaml.Structure

/-!
# Reading documents

The data that a document describes. It is built from the root on, one level after the other, and of
several faults the first one on this way counts. A node is built once: it is the same data wherever
it is a part.

Of the fields of a map with one key the last counts, at the place of the first. Only scalars can be
keys. A set is written as a map, of which it has the keys, and pairs are written as a list of maps
with one field each; a pair can have any data in front.
-/

namespace VersionGate.Yaml

open Data

/-- A key of a map, and the node that it comes from. -/
structure Key where
  value : Scalar
  node : Nat
  deriving DecidableEq, Repr

/-- Whether two keys are the same one. What is not a number is the same as itself alone. -/
def Key.same (k l : Key) : Bool :=
  if k.value = .float .nan && l.value = .float .nan then k.node == l.node
  else k.value.sameKey l.value

/-- Sets a field: under a key that is there already the value is replaced, a new one comes last. -/
def setField (fields : List (Key × Nat)) (key : Key) (value : Nat) : List (Key × Nat) :=
  match fields with
  | [] => [(key, value)]
  | (k, old) :: rest =>
    if k.same key then (k, value) :: rest else (k, old) :: setField rest key value

/-- How far the data of a document is built. -/
structure Building where
  graph : Graph
  /-- What has been built; what waits for its parts is empty. -/
  cells : Array (Option Cell)
  /-- The nodes that wait for their parts, the last one first. -/
  waiting : List Nat := []
  deriving Repr

namespace Building

/-- The beginning, where nothing is built. -/
def start (graph : Graph) : Building := { graph, cells := Array.replicate graph.size none }

/-- Puts a cell at the number of a node. -/
def put (s : Building) (n : Nat) (cell : Cell) : Building :=
  { s with cells := s.cells.setIfInBounds n (some cell) }

/-- The cell of data that has a tag for data with parts, without its parts. -/
def empty? : Tag → Option Cell
  | .list => some (.list [])
  | .map => some (.map [])
  | .set => some (.set [])
  | .pairs => some (.pairs [])
  | _ => none

/-- Builds data that gets its parts later. -/
def defer (s : Building) (n : Nat) (cell : Cell) : Building :=
  { s.put n cell with waiting := n :: s.waiting }

/-- The value of a node with a scalar's tag. The text is not looked for if the tag has no meaning
here. -/
def scalar (g : Graph) (n : Nat) (tag : Tag) : Except Fault Scalar :=
  match tag with
  | .merge | .value | .other => .error .form
  | tag => do
    let text ← g.text n
    match tag, g[n]? with
    | .timestamp, some (.map ..) => .error .timestampMap
    | tag, _ => ScalarValue.ofText tag text

/-- Builds a node unless it has been built before. -/
def visit (s : Building) (n : Nat) : Except Fault Building :=
  if (s.cells[n]?.join).isSome then .ok s
  else
    match s.graph.tag? n with
    | none => .error .form
    | some tag =>
      match empty? tag with
      | some cell => .ok (s.defer n cell)
      | none => do .ok (s.put n (.scalar (← scalar s.graph n tag)))

/-- Builds the two parts of a pair. -/
def visitBoth (s : Building) (pair : Nat × Nat) : Except Fault Building := do
  (← s.visit pair.1).visit pair.2

/-- Builds the key and the value of a field. -/
def visitField (s : Building) (field : Nat × Nat) : Except Fault Building :=
  if ((s.graph.tag? field.1).bind empty?).isSome then .error .form else s.visitBoth field

/-- Builds the parts of a pair that is written as a map with one field. -/
def visitPair (s : Building) (item : Nat) : Except Fault Building :=
  match s.graph.fields item with
  | [pair] => s.visitBoth pair
  | _ => .error .form

/-- The key that a node stands for. The words for what is not a number all stand for one key. -/
def key (s : Building) (n : Nat) : Key :=
  match s.cells[n]?.join with
  | some (.scalar value) =>
    if (s.graph.text n).toOption.any ScalarValue.isNanWord then ⟨value, s.graph.size⟩
    else ⟨value, n⟩
  | _ => ⟨.null, n⟩

/-- The fields of a map by their keys. -/
def keyed (s : Building) (fields : List (Nat × Nat)) : List (Scalar × Nat) :=
  (fields.foldl (fun set (k, v) => setField set (s.key k) v) []).map fun (k, v) => (k.value, v)

/-- Builds the keys and values of a map once its merge keys are dealt with, and gives its fields. -/
def visitFields (s : Building) (n : Nat) : Except Fault (Building × List (Scalar × Nat)) := do
  let graph ← Merge.merge s.graph n
  let fields := graph.fields n
  let s ← fields.foldlM visitField { s with graph }
  .ok (s, s.keyed fields)

/-- Gives data its parts. -/
def fill (s : Building) (n : Nat) : Except Fault Building :=
  match s.graph[n]? with
  | some (.list .list items) => do
    let s ← items.foldlM visit s
    .ok (s.put n (.list items))
  | some (.list .pairs items) => do
    let s ← items.foldlM visitPair s
    .ok (s.put n (.pairs (items.flatMap s.graph.fields)))
  | some (.map .map _) => do
    let (s, fields) ← s.visitFields n
    .ok (s.put n (.map fields))
  | some (.map .set _) => do
    let (s, fields) ← s.visitFields n
    .ok (s.put n (.set (SetOrder.order (fields.map (·.1)))))
  | _ => .error .form

/-- Builds one level after the other until no node waits. -/
def run : Nat → Building → Except Fault Building
  | 0, s => .ok s
  | fuel + 1, s =>
    match s.waiting with
    | [] => .ok s
    | waiting => do run fuel (← waiting.reverse.foldlM fill { s with waiting := [] })

end Building

namespace Document

/-- The data of a tree. No more levels than nodes have to be built. -/
def ofTree (t : Tree) : Except Fault Datum := do
  let graph := Graph.ofTree t
  let s ← (Building.start graph).visit 0
  let s ← s.run (graph.size + 1)
  let store : Store := s.cells.map (·.getD (.scalar .null))
  .ok (store.unfold 0)

/-- Reads a document: null if the text holds none. All its letters have to be characters. -/
def readChars (cs : List Char) : Except Fault Datum :=
  match (Text.wholes? cs).filter (·.all isAllowed) with
  | none => .error .form
  | some cs => do
    match ← Structure.document (Token.scan cs) with
    | none => .ok .null
    | some tree => ofTree tree

/-- Reads a document. -/
def read (s : String) : Except Fault Datum := readChars s.toList

end Document

end VersionGate.Yaml

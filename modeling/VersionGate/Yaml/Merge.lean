import VersionGate.Yaml.Fault
import VersionGate.Yaml.Graph

/-!
# Merge keys

A map takes in the fields of other maps under a merge key: of one map or of a list of maps, the
later of which come first. What is taken in stands in front of the map's own fields.

Merging changes the graph, and so do maps that are merged into others: `mergeInto` leaves them with
all that they have taken in. A merge key is gone before its maps are looked at, so that a map that
is merged into itself takes in what it has at that time. The key for the value of a map, an equals
sign, becomes a text once the merge keys of its map are dealt with.
-/

namespace VersionGate.Yaml.Merge

/-- Whether a field has a merge key. -/
def isMerge (g : Graph) (field : Nat × Nat) : Bool := g.tag? field.1 == some .merge

/-- Takes the first field with a merge key out of a map. -/
def take? (g : Graph) (n : Nat) : Option (Nat × Graph) :=
  ((g.fields n).find? (isMerge g)).map fun (_, v) =>
    (v, g.modify n (Node.withFields ((g.fields n).eraseP (isMerge g))))

/-- Puts fields in front of those of a map, and makes its key for its value a text. -/
def close (g : Graph) (n : Nat) (taken : List (Nat × Nat)) : Graph :=
  (g.fields n).foldl
    (fun g (k, _) => if g.tag? k == some .value then g.modify k (Node.withTag .text) else g)
    (g.modify n (Node.withFields (taken ++ g.fields n)))

/-- Deals with the merge keys of a map, which has `taken` in some fields already. -/
def mergeInto : Nat → Graph → Nat → List (Nat × Nat) → Except Fault Graph
  | 0, _, _, _ => .error .form
  | fuel + 1, g, n, taken =>
    match take? g n with
    | none => .ok (close g n taken)
    | some (v, g) => do
      let ofMap (state : Graph × List (Nat × Nat)) (m : Nat) :
          Except Fault (Graph × List (Nat × Nat)) :=
        match state.1[m]? with
        | some (.map ..) => do
          let g ← mergeInto fuel state.1 m []
          .ok (g, g.fields m ++ state.2)
        | _ => .error .form
      let (g, more) ← match g[v]? with
        | some (.list _ items) => items.foldlM ofMap (g, [])
        | _ => ofMap (g, []) v
      mergeInto fuel g n (taken ++ more)

/-- The number of fields in a graph. -/
def fieldCount (g : Graph) : Nat := g.foldl (fun count node => count + node.fields.length) 0

/-- Deals with the merge keys of a map, if there are any. Each of them is taken out once. -/
def merge (g : Graph) (n : Nat) : Except Fault Graph :=
  if (g.fields n).any (isMerge g) then mergeInto (fieldCount g + 1) g n [] else .ok (close g n [])

end VersionGate.Yaml.Merge

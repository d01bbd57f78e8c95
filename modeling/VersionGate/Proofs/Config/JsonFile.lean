import VersionGate.Config.Format
import VersionGate.Proofs.Config.Loading

/-!
# Trees in JSON files

Nothing of a tree is lost in its JSON file: reading the file gives the tree with all names, texts
and children in their order.

## Key results

- `readData_render_json`: the data in the JSON file of a tree
- `read_render_json`: the tree in the JSON file of a tree is that tree, so different trees have
  different files
-/

namespace VersionGate.Config.Format

/-- The data in the JSON file of a tree is the one that was written. -/
theorem readData_render_json (tree : Node) :
    readData (render tree json) json = .ok tree.toJson.toDatum := by
  simp only [readData, render, Json.read_render tree.symbolic_toJson]
  rfl

/-- The tree in the JSON file of a tree is that tree. -/
theorem read_rendered_json (tree : Node) : read json (render tree json) = .ok tree := by
  simp only [read, readData_render_json, bind, Except.bind, Node.ofDatum_toDatum_toJson]
  rfl

/-- Each tree comes back from its JSON file. So different trees have different files. -/
theorem read_render_json :
    (∀ tree : Node, read json (render tree json) = .ok tree) ∧
      ∀ tree other : Node, render tree json = render other json → tree = other := by
  refine ⟨read_rendered_json, fun tree other h => ?_⟩
  have hsame : Except.ok tree = (Except.ok other : Except TextFault Node) :=
    calc Except.ok tree
        = read json (render tree json) := (read_rendered_json tree).symm
      _ = read json (render other json) := by rw [h]
      _ = .ok other := read_rendered_json other
  exact Except.ok.inj hsame

end VersionGate.Config.Format

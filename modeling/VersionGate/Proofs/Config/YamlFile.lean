import VersionGate.Config.Format
import VersionGate.Proofs.Config.Loading
import VersionGate.Proofs.Yaml.Document
import VersionGate.Proofs.Yaml.TreeBack
import VersionGate.Proofs.Yaml.Written

/-!
# Trees in YAML files

The YAML file of a tree can always be read, and what comes back has the shape of the tree: the same
nesting, the same order, names missing in the same places. Its texts come back one by one, and for a
tree of characters that is the tree itself exactly if all its texts survive. A text with the
next-line character between single quotes does not, nor does one that is broken behind an escape in
a line further in than the greatest width.

## Key results

- `read_render_eq_back`: the tree in the YAML file of a tree
- `read_render_yaml`: when that is the tree
- `read_render_of_near`: trees of which nothing is lost
-/

namespace VersionGate

open Config

/-- The data in the document of a tree is that of what comes back, apart from labels, and it does
not contain itself. -/
theorem Yaml.Document.read_render (tree : Config.Node) :
    ∃ d, Yaml.Document.read (Yaml.render tree) = .ok d ∧
      d.unlabelled = (Yaml.backNode 0 tree).toJson.toDatum ∧ d.Apart [] := by
  obtain ⟨fields, hfields, hspells⟩ := Yaml.spellsMap_nodeFields 0 tree
  have hsymbolic := (Yaml.backNode 0 tree).symbolic_toJson
  obtain ⟨d, hd, hdata⟩ := Yaml.Document.ofTree_ofJson hsymbolic
  refine ⟨d, ?_, hdata⟩
  rw [hfields] at hd
  simp only [Yaml.Document.read, Yaml.render, String.toList_ofList, Yaml.Document.readChars,
    Yaml.wholes?_render, Yaml.scan_render, Yaml.Structure.document_fields hspells, bind,
    Except.bind, hd]

namespace Config.Format

/-- The tree in the YAML file of a tree is what comes back of that. -/
theorem read_render_eq_back (tree : Node) :
    read yaml (render tree yaml) = .ok (Yaml.backNode 0 tree) := by
  obtain ⟨d, hd, hunlabelled, hapart⟩ := Yaml.Document.read_render tree
  simp only [read, readData, render, hd, Except.mapError, bind, Except.bind,
    Node.ofDatum_of_unlabelled _ hunlabelled hapart]

/-- The YAML file of a tree can be read, and the tree in it is what comes back of that. If the texts
are texts of characters that is the tree itself exactly if all of them survive. -/
theorem read_render_yaml (tree : Node) :
    read yaml (render tree yaml) = .ok (Yaml.backNode 0 tree) ∧
      (read yaml (render (tree.mapTexts Text.spelled) yaml) = .ok (tree.mapTexts Text.spelled) ↔
        Yaml.AllOfNode Yaml.SurvivesText 0 (tree.mapTexts Text.spelled)) := by
  refine ⟨read_render_eq_back tree, ?_⟩
  rw [read_render_eq_back, Except.ok.injEq]
  exact Yaml.backNode_eq_self_iff 0 tree

/-- The next-line character is written as itself between single quotes, and read as a line break. -/
theorem read_render_yaml_nextLine :
    read yaml (render ⟨some (Text.spelled "a\u0085b"), [], []⟩ yaml) =
      .ok ⟨some "a b", [], []⟩ := by
  have hname : Yaml.backText 0 (Text.spelled "a\u0085b") = "a b" := by decide +kernel
  rw [read_render_eq_back]
  simp only [Yaml.backNode, Option.map_some, hname, List.map_nil, Yaml.backNodes]

/-- A tree comes back if its texts are without the next-line character and their lines are not too
far in. -/
theorem read_render_of_near {tree : Node}
    (h : Yaml.AllOfNode
      (fun indent s => indent + 2 < Yaml.lineWidth ∧ Yaml.Scalar.nextLine ∉ s.toList) 0
      (tree.mapTexts Text.spelled)) :
    read yaml (render (tree.mapTexts Text.spelled) yaml) = .ok (tree.mapTexts Text.spelled) := by
  rw [read_render_eq_back, (Yaml.backNode_eq_self_iff 0 tree).mpr]
  exact h.imp fun _ _ hs => Yaml.survivesText_of_near hs.1 hs.2

end Config.Format

end VersionGate

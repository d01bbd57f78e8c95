import VersionGate.Proofs.Yaml.Structure
import VersionGate.Yaml.Graph

/-!
# Graphs of trees without aliases

A tree without aliases is numbered so that every part has a greater number than what it is a part
of. `Holds g n j` says that data stands at a number of a graph in this way. It is about numbers from
there on alone, so what has been numbered before and what is numbered later does not matter.

## Key results

- `Holds.congr`: data stands in all graphs that agree from its number on
- `holds_ofTree`: the graph of the tree of some data holds the data
-/

namespace VersionGate.Yaml

namespace Graph

mutual

/-- Whether data stands at a number of a graph, with its parts at greater numbers. -/
def Holds (g : Graph) (n : Nat) : Json → Prop
  | .null => g[n]? = some (.scalar .null "null")
  | .bool b => g[n]? = some (.scalar .bool (if b then "true" else "false"))
  | .int _ | .float _ => g[n]? = some (.scalar .null "")
  | .string s => g[n]? = some (.scalar .text s)
  | .array items => ∃ ns, g[n]? = some (.list .list ns) ∧ (∀ m ∈ ns, n < m) ∧ HoldsItems g ns items
  | .object fields =>
    ∃ fs, g[n]? = some (.map .map fs) ∧ (∀ f ∈ fs, n < f.1 ∧ n < f.2) ∧ HoldsFields g fs fields

/-- Whether the items of a list stand at some numbers. -/
def HoldsItems (g : Graph) : List Nat → List Json → Prop
  | [], [] => True
  | n :: ns, j :: js => Holds g n j ∧ HoldsItems g ns js
  | _, _ => False

/-- Whether the fields of a map stand at some pairs of numbers. -/
def HoldsFields (g : Graph) : List (Nat × Nat) → List (String × Json) → Prop
  | [], [] => True
  | (k, v) :: fs, (key, j) :: rest =>
    g[k]? = some (.scalar .text key) ∧ Holds g v j ∧ HoldsFields g fs rest
  | _, _ => False

end

variable {g g' : Graph} {n : Nat}

mutual

/-- Data stands in all graphs that agree from its number on. -/
theorem Holds.congr : ∀ {j : Json} {n : Nat}, Holds g n j →
    (∀ m, n ≤ m → m < g.size → g'[m]? = g[m]?) → Holds g' n j
  | j, n, h, hagree => by
    have hlt : ∀ {node : Node}, g[n]? = some node → g'[n]? = some node := by
      intro node hnode
      obtain ⟨hsize, -⟩ := Array.getElem?_eq_some_iff.mp hnode
      rw [hagree n (Nat.le_refl n) hsize, hnode]
    cases j with
    | null | bool | int | float | string => exact hlt h
    | array items =>
      obtain ⟨ns, hn, hns, hitems⟩ := h
      exact ⟨ns, hlt hn, hns, hitems.congr (fun m hm => hns m hm) fun m hm => hagree m (by omega)⟩
    | object fields =>
      obtain ⟨fs, hn, hfs, hfields⟩ := h
      exact ⟨fs, hlt hn, hfs, hfields.congr (fun f hf => hfs f hf) fun m hm => hagree m (by omega)⟩

/-- So do the items of an array. -/
theorem HoldsItems.congr : ∀ {js : List Json} {ns : List Nat} {n : Nat}, HoldsItems g ns js →
    (∀ m ∈ ns, n < m) → (∀ m, n < m → m < g.size → g'[m]? = g[m]?) → HoldsItems g' ns js
  | [], [], _, _, _, _ => trivial
  | j :: js, m :: ns, n, h, hns, hagree => by
    have hm := hns m (by simp)
    exact ⟨h.1.congr fun i hi => hagree i (by omega),
      h.2.congr (fun i hi => hns i (by simp [hi])) hagree⟩

/-- So do the fields of an object. -/
theorem HoldsFields.congr : ∀ {fields : List (String × Json)} {fs : List (Nat × Nat)} {n : Nat},
    HoldsFields g fs fields → (∀ f ∈ fs, n < f.1 ∧ n < f.2) →
    (∀ m, n < m → m < g.size → g'[m]? = g[m]?) → HoldsFields g' fs fields
  | [], [], _, _, _, _ => trivial
  | (key, j) :: fields, (k, v) :: fs, n, h, hfs, hagree => by
    obtain ⟨hk, hv, hrest⟩ := h
    obtain ⟨hlt, hlt'⟩ := hfs (k, v) (by simp)
    obtain ⟨hsize, -⟩ := Array.getElem?_eq_some_iff.mp hk
    exact ⟨(hagree k hlt hsize).trans hk, hv.congr fun i hi => hagree i (by omega),
      hrest.congr (fun f hf => hfs f (by simp [hf])) hagree⟩

end

/-- Whether a graph has all nodes of another one at their numbers. -/
def Extends (g g' : Graph) : Prop := g.size ≤ g'.size ∧ ∀ m < g.size, g'[m]? = g[m]?

theorem Extends.refl (g : Graph) : g.Extends g := ⟨Nat.le_refl _, fun _ _ => rfl⟩

theorem Extends.trans {g g' g'' : Graph} (h : g.Extends g') (h' : g'.Extends g'') :
    g.Extends g'' :=
  ⟨Nat.le_trans h.1 h'.1, fun m hm => (h'.2 m (Nat.lt_of_lt_of_le hm h.1)).trans (h.2 m hm)⟩

/-- A node more leaves the others as they were. -/
private theorem extends_push (g : Graph) (node : Node) : g.Extends (g.push node) := by
  refine ⟨by simp, fun m hm => ?_⟩
  rw [Array.getElem?_push, if_neg (by omega)]

/-- What is set behind the nodes of a graph does not change them. -/
theorem Extends.set {node : Node} (h : g.Extends g') (hn : g.size ≤ n) :
    g.Extends (g'.setIfInBounds n node) := by
  refine ⟨by simpa using h.1, fun m hm => ?_⟩
  rw [Array.getElem?_setIfInBounds_ne (by omega)]
  exact h.2 m hm

end Graph

namespace Numbering

/-- A node that gets its parts later is there when it gets them, and nothing else is changed. -/
private theorem extends_deferred {g g' : Graph} {node : Node} (h : Graph.Extends (g.push node) g')
    (full : Node) :
    g.Extends (g'.setIfInBounds g.size full) ∧
      (g'.setIfInBounds g.size full)[g.size]? = some full ∧
        ∀ m, g.size < m → (g'.setIfInBounds g.size full)[m]? = g'[m]? := by
  have hsize : g.size < g'.size := Nat.lt_of_lt_of_le (by simp) h.1
  refine ⟨((Graph.extends_push g node).trans h).set (Nat.le_refl _), ?_, fun m hm => ?_⟩
  · rw [Array.getElem?_setIfInBounds_self_of_lt hsize]
  · rw [Array.getElem?_setIfInBounds_ne (by omega)]

mutual

/-- The tree of some data is numbered behind what there is, and the data stands at its number. -/
private theorem addTree_ofJson (s : Numbering) : ∀ j : Json,
    s.nodes.Extends (s.addTree (.ofJson j)).1.nodes ∧ (s.addTree (.ofJson j)).2 = s.nodes.size ∧
      Graph.Holds (s.addTree (.ofJson j)).1.nodes s.nodes.size j
  | .null | .bool _ | .int _ | .float _ | .string _ =>
    ⟨Graph.extends_push _ _, rfl, Array.getElem?_push_size⟩
  | .array items => by
    -- the list is added without items, and gets them once they have their numbers
    obtain ⟨hextends, hns, hitems⟩ := addItems_itemsOfJson (s.add none (.list .list [])) items
    obtain ⟨hall, hself, hlater⟩ := extends_deferred hextends
      (.list .list (addItems (s.add none (.list .list [])) (itemsOfJson items)).2)
    have hlt : ∀ m ∈ (addItems (s.add none (.list .list [])) (itemsOfJson items)).2,
        s.nodes.size < m := fun m hm => by
      have := hns m hm
      simp only [add, Array.size_push] at this
      omega
    exact ⟨hall, rfl, _, hself, hlt, hitems.congr hlt fun m hm _ => hlater m hm⟩
  | .object fields => by
    obtain ⟨hextends, hfs, hfields⟩ := addFields_fieldsOfJson (s.add none (.map .map [])) fields
    obtain ⟨hall, hself, hlater⟩ := extends_deferred hextends
      (.map .map (addFields (s.add none (.map .map [])) (fieldsOfJson fields)).2)
    have hlt : ∀ f ∈ (addFields (s.add none (.map .map [])) (fieldsOfJson fields)).2,
        s.nodes.size < f.1 ∧ s.nodes.size < f.2 := fun f hf => by
      have := hfs f hf
      simp only [add, Array.size_push] at this
      omega
    exact ⟨hall, rfl, _, hself, hlt, hfields.congr hlt fun m hm _ => hlater m hm⟩

/-- So it is with the items of an array. -/
private theorem addItems_itemsOfJson (s : Numbering) : ∀ js : List Json,
    s.nodes.Extends (s.addItems (itemsOfJson js)).1.nodes ∧
      (∀ m ∈ (s.addItems (itemsOfJson js)).2, s.nodes.size ≤ m) ∧
        Graph.HoldsItems (s.addItems (itemsOfJson js)).1.nodes (s.addItems (itemsOfJson js)).2 js
  | [] => ⟨.refl _, by simp [addItems, itemsOfJson], trivial⟩
  | j :: js => by
    obtain ⟨hextends, hn, hj⟩ := addTree_ofJson s j
    obtain ⟨hextends', hns, hjs⟩ := addItems_itemsOfJson (s.addTree (.ofJson j)).1 js
    have hall : ∀ m ∈ (addItems (s.addTree (.ofJson j)).1 (itemsOfJson js)).2,
        s.nodes.size ≤ m := fun m hm => Nat.le_trans hextends.1 (hns m hm)
    exact ⟨hextends.trans hextends', List.forall_mem_cons.mpr ⟨Nat.le_of_eq hn.symm, hall⟩,
      hn ▸ hj.congr fun m _ hm => hextends'.2 m hm, hjs⟩

/-- So it is with the fields of an object. -/
private theorem addFields_fieldsOfJson (s : Numbering) : ∀ fields : List (String × Json),
    s.nodes.Extends (s.addFields (fieldsOfJson fields)).1.nodes ∧
      (∀ f ∈ (s.addFields (fieldsOfJson fields)).2, s.nodes.size ≤ f.1 ∧ s.nodes.size ≤ f.2) ∧
        Graph.HoldsFields (s.addFields (fieldsOfJson fields)).1.nodes
          (s.addFields (fieldsOfJson fields)).2 fields
  | [] => ⟨.refl _, by simp [addFields, fieldsOfJson], trivial⟩
  | (key, j) :: fields => by
    let s₁ := s.add none (.scalar .text key)
    have hkey : s.nodes.Extends s₁.nodes := Graph.extends_push _ _
    have hself : s₁.nodes[s.nodes.size]? = some (.scalar .text key) := Array.getElem?_push_size
    obtain ⟨hextends, hv, hj⟩ := addTree_ofJson s₁ j
    obtain ⟨hextends', hfs, hfields⟩ := addFields_fieldsOfJson (s₁.addTree (.ofJson j)).1 fields
    have hlater := hextends.trans hextends'
    refine ⟨hkey.trans hlater, List.forall_mem_cons.mpr ⟨⟨Nat.le_refl _, ?_⟩, fun f hf => ?_⟩,
      (hlater.2 _ ?_).trans hself, hv ▸ hj.congr fun m _ hm => hextends'.2 m hm, hfields⟩
    · exact hv ▸ hkey.1
    · have := hfs f hf
      have := hkey.1
      have := hextends.1
      omega
    · simp [s₁, add]

end

end Numbering

/-- The graph of the tree of some data holds the data. -/
theorem Graph.holds_ofTree (j : Json) : Graph.Holds (Graph.ofTree (.ofJson j)) 0 j :=
  (Numbering.addTree_ofJson {} j).2.2

end VersionGate.Yaml

import VersionGate.Proofs.Data.Labels
import VersionGate.Proofs.Data.Store
import VersionGate.Proofs.Yaml.Building

/-!
# The data of a document

What is built of the tree of symbolic data, and unfolded, is the data again, with the number of its
node as a label on every list and map.

## Key results

- `Complete.unlabelled`: what a store of complete cells unfolds to
- `ofTree_ofJson`: the data of the tree of symbolic data
-/

namespace VersionGate.Yaml

open Data

/-- Whether a store has the complete cells of some numbers, with those of their parts. -/
def Complete (g : Graph) (store : Store) (built : Nat → Prop) : Prop :=
  ∀ n, built n → store[n]? = some (g.cellAt n) ∧ ∀ m ∈ (g.cellAt n).parts, built m

variable {g : Graph} {store : Store} {built : Nat → Prop}

/-- A complete cell is unfolded by its parts. -/
private theorem Complete.unfolds (h : Complete g store built) {n : Nat} {d : Datum} (hn : built n)
    (hd : store.Unfolds n d) :
    ∃ part : Nat → Datum, d = (g.cellAt n).build n part ∧
      ∀ m ∈ (g.cellAt n).parts, built m ∧ store.Unfolds m (part m) := by
  obtain ⟨hcell, hparts⟩ := h n hn
  cases hd with
  | @build _ cell part hcell' hunfolds =>
    obtain rfl : cell = g.cellAt n := Option.some.inj (hcell'.symm.trans hcell)
    exact ⟨part, rfl, fun m hm => ⟨hparts m hm, hunfolds m hm⟩⟩

mutual

/-- What a store of complete cells unfolds to is the data that stands there. -/
theorem Complete.unlabelled (h : Complete g store built) : ∀ (j : Json) {n : Nat} {d : Datum},
    j.Symbolic → g.Holds n j → built n → store.Unfolds n d → d.unlabelled = j.toDatum
  | .null, n, d, _, hheld, hn, hd => by
    obtain ⟨part, rfl, -⟩ := h.unfolds hn hd
    rw [Graph.cellAt_scalar hheld rfl]
    rfl
  | .bool b, n, d, _, hheld, hn, hd => by
    obtain ⟨part, rfl, -⟩ := h.unfolds hn hd
    rw [Graph.cellAt_scalar hheld (Graph.ofText_bool b)]
    rfl
  | .string s, n, d, _, hheld, hn, hd => by
    obtain ⟨part, rfl, -⟩ := h.unfolds hn hd
    rw [Graph.cellAt_scalar hheld rfl]
    rfl
  | .array items, n, d, hsymbolic, ⟨ns, hnode, _, hitems⟩, hn, hd => by
    obtain ⟨part, rfl, hparts⟩ := h.unfolds hn hd
    rw [Graph.cellAt_list hnode] at hparts ⊢
    exact congrArg (Datum.list none) (h.unlabelledItems items hsymbolic hitems hparts)
  | .object fields, n, d, hsymbolic, ⟨fs, hnode, _, hfields⟩, hn, hd => by
    obtain ⟨part, rfl, hparts⟩ := h.unfolds hn hd
    rw [Graph.cellAt_map hnode] at hparts ⊢
    refine congrArg (Datum.map none) ?_
    rw [List.map_map]
    exact h.unlabelledFields fields hsymbolic.2 hfields fun f hf =>
      hparts f.2 (by simpa [Cell.parts] using ⟨f.1, hf⟩)

/-- So it is with the items of an array. -/
theorem Complete.unlabelledItems (h : Complete g store built) : ∀ (js : List Json) {ns : List Nat}
    {part : Nat → Datum}, Json.ItemsSymbolic js → g.HoldsItems ns js →
      (∀ m ∈ ns, built m ∧ store.Unfolds m (part m)) →
        Data.unlabelledItems (ns.map part) = Json.itemsToDatum js
  | [], [], _, _, _, _ => rfl
  | j :: js, n :: ns, part, hsymbolic, hheld, hparts => by
    obtain ⟨hn, hns⟩ := List.forall_mem_cons.mp hparts
    have hj := h.unlabelled j hsymbolic.1 hheld.1 hn.1 hn.2
    have hjs := h.unlabelledItems js hsymbolic.2 hheld.2 hns
    rw [List.map_cons, Data.unlabelledItems, hj, hjs, Json.itemsToDatum]

/-- So it is with the fields of an object. -/
theorem Complete.unlabelledFields (h : Complete g store built) :
    ∀ (fields : List (String × Json)) {fs : List (Nat × Nat)} {part : Nat → Datum},
      Json.FieldsSymbolic fields → g.HoldsFields fs fields →
      (∀ f ∈ fs, built f.2 ∧ store.Unfolds f.2 (part f.2)) →
        Data.unlabelledFields (fs.map fun f => (.text (g.keyText f.1), part f.2)) =
          Json.fieldsToDatum fields
  | [], [], _, _, _, _ => rfl
  | (key, j) :: fields, (k, v) :: fs, part, hsymbolic, hheld, hparts => by
    obtain ⟨hf, hfs⟩ := List.forall_mem_cons.mp hparts
    have hkey := Graph.keyText_of_scalar hheld.1
    have hj := h.unlabelled j hsymbolic.1 hheld.2.1 hf.1 hf.2
    have hfields := h.unlabelledFields fields hsymbolic.2 hheld.2.2 hfs
    rw [List.map_cons, Data.unlabelledFields, hj, hfields, hkey, Json.fieldsToDatum]

end

namespace Document

/-- Where nothing waits, what is built is complete and in order. -/
private theorem complete_of_frontier {level : Nat} {s : Building} (h : s.Frontier g level [])
    (hwaiting : s.waiting = []) :
    Complete g (s.cells.map (·.getD (.scalar .null))) (fun n => (s.cell? n).isSome) ∧
      Store.Ordered (s.cells.map (·.getD (.scalar .null))) := by
  have hdone : ∀ n c, s.cell? n = some c →
      c = g.cellAt n ∧ ∀ m ∈ c.parts, (s.cell? m).isSome := by
    intro n c hc
    rcases h.complete n c hc with hmem | hmem | hdone
    · simp at hmem
    · simp [hwaiting] at hmem
    · exact hdone
  refine ⟨fun n hn => ?_, fun n cell hcell m hm => ?_⟩
  · obtain ⟨c, hc⟩ := Option.isSome_iff_exists.mp hn
    obtain ⟨rfl, hparts⟩ := hdone n c hc
    have hcells : s.cells[n]? = some (some (g.cellAt n)) := Option.join_eq_some_iff.mp hc
    exact ⟨by simp [hcells], hparts⟩
  · rw [Array.getElem?_map] at hcell
    obtain ⟨c, hc, rfl⟩ := Option.map_eq_some_iff.mp hcell
    -- a number at which nothing was built has a cell without parts
    cases c with
    | none => simp [Cell.parts] at hm
    | some c =>
      have hbuilt : s.cell? n = some c := Option.join_eq_some_iff.mpr hc
      obtain ⟨rfl, -⟩ := hdone n c hbuilt
      obtain ⟨hlt, hstands⟩ := (h.stands n (by rw [hbuilt]; rfl)).parts m hm
      refine ⟨hlt, ?_⟩
      rw [Array.size_map, h.size]
      exact hstands.lt

/-- In the beginning nothing is built. -/
private theorem frontier_start (g : Graph) : (Building.start g).Frontier g 0 [] := by
  have hnone : ∀ n, (Building.start g).cell? n = none := by
    intro n
    simp only [Building.cell?, Building.start, Array.getElem?_replicate]
    split <;> rfl
  refine ⟨rfl, by simp [Building.start], fun n hn => ?_, by simp [Building.start], fun n c hc => ?_⟩
  · simp [hnone] at hn
  · simp [hnone] at hc

/-- The data of the tree of symbolic data. It does not contain itself. -/
theorem ofTree_ofJson {j : Json} (h : j.Symbolic) :
    ∃ d, ofTree (.ofJson j) = .ok d ∧ d.unlabelled = j.toDatum ∧ d.Apart [] := by
  have hheld := Graph.holds_ofTree j
  -- the root is built first, then one level after the other
  obtain ⟨s₁, hs₁, hfrontier₁, -, hbuilt₁⟩ :=
    (frontier_start (Graph.ofTree (.ofJson j))).visit ⟨j, h, hheld⟩ (Nat.le_refl 0)
  obtain ⟨s₂, level, hs₂, hfrontier₂, hwaiting, hkeeps⟩ :=
    Building.run_spec ((Graph.ofTree (.ofJson j)).size + 1) 0 s₁ hfrontier₁ (by omega)
  obtain ⟨hcomplete, hordered⟩ := complete_of_frontier hfrontier₂ hwaiting
  have hbuilt := hkeeps 0 hbuilt₁
  have hroot : 0 < (s₂.cells.map (·.getD (.scalar .null))).size := by
    rw [Array.size_map, hfrontier₂.size]
    exact (hfrontier₂.stands 0 hbuilt).lt
  have hunfolds := Store.unfolds_unfold hordered hroot
  refine ⟨_, ?_, hcomplete.unlabelled j h hheld hbuilt hunfolds, hunfolds.apart hordered (by simp)⟩
  simp only [ofTree, hs₁, hs₂, bind, Except.bind]

end Document

end VersionGate.Yaml

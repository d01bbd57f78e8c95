import VersionGate.Proofs.Json.RoundTrip
import VersionGate.Proofs.Yaml.Graph
import VersionGate.Yaml.Document

/-!
# Building the data of a graph

Data is built one level after the other: a list or a map is built empty first and gets its parts
when its level is dealt with. `Frontier` is what holds in between: what has been built is complete
with all of its parts built too, apart from the lists and maps that still wait. The numbers of the
parts are greater than that of what they are a part of, so with every level the least number that
can wait grows, and no more levels can come than there are nodes.

## Key results

- `Frontier.visit`, `Frontier.fill`: what building a node and giving it its parts keep
- `run_spec`: in the end nothing waits, and what has been built is complete
-/

namespace VersionGate.Yaml

open Data

/-! ## Symbolic data in a graph -/

namespace Graph

variable {g : Graph} {n : Nat}

/-- Whether symbolic data stands at a number. -/
def Stands (g : Graph) (n : Nat) : Prop := ∃ j : Json, j.Symbolic ∧ g.Holds n j

/-- Whether a list or a map of symbolic data stands at a number. -/
inductive Waits (g : Graph) (n : Nat) : Prop where
  | list {items : List Json} (hitems : Json.ItemsSymbolic items) (h : g.Holds n (.array items))
  | map {fields : List (String × Json)} (hfields : (Json.object fields).Symbolic)
    (h : g.Holds n (.object fields))

/-- A truth value is read back from its text. -/
theorem ofText_bool (b : Bool) :
    ScalarValue.ofText .bool (if b then "true" else "false") = .ok (.bool b) := by
  cases b <;> decide +kernel

/-- Symbolic data is a scalar with a value, or a list or a map. -/
private theorem Stands.scalar_or_waits (h : g.Stands n) :
    (∃ tag text value, g[n]? = some (.scalar tag text) ∧
      ScalarValue.ofText tag text = .ok value ∧ Building.empty? tag = none) ∨ g.Waits n := by
  obtain ⟨j, hsymbolic, h⟩ := h
  cases j with
  | int | float => exact hsymbolic.elim
  | null => exact .inl ⟨.null, _, .null, h, rfl, rfl⟩
  | bool b => exact .inl ⟨.bool, _, .bool b, h, ofText_bool b, rfl⟩
  | string s => exact .inl ⟨.text, s, .text s, h, rfl, rfl⟩
  | array items => exact .inr (.list hsymbolic h)
  | object fields => exact .inr (.map hsymbolic h)

/-- What waits for its parts stands for a value. -/
theorem Waits.stands (h : g.Waits n) : g.Stands n := by
  cases h with
  | list hitems h => exact ⟨.array _, hitems, h⟩
  | map hfields h => exact ⟨.object _, hfields, h⟩

/-- What stands for a value is in the graph. -/
theorem Stands.lt (h : g.Stands n) : n < g.size := by
  obtain ⟨j, -, h⟩ := h
  have hlt : ∀ {node : Node}, g[n]? = some node → n < g.size := fun hnode =>
    (Array.getElem?_eq_some_iff.mp hnode).1
  cases j with
  | null | bool | int | float | string => exact hlt h
  | array items => exact hlt h.choose_spec.1
  | object fields => exact hlt h.choose_spec.1

/-- The items of an array stand for values. -/
theorem HoldsItems.stands : ∀ {js : List Json} {ns : List Nat}, HoldsItems g ns js →
    Json.ItemsSymbolic js → ∀ m ∈ ns, g.Stands m
  | [], [], _, _ => by simp
  | j :: js, n :: ns, h, hsymbolic =>
    List.forall_mem_cons.mpr ⟨⟨j, hsymbolic.1, h.1⟩, h.2.stands hsymbolic.2⟩

/-- The fields of a map have texts for keys. -/
theorem HoldsFields.stands : ∀ {fields : List (String × Json)} {fs : List (Nat × Nat)},
    HoldsFields g fs fields → Json.FieldsSymbolic fields →
      ∀ f ∈ fs, (∃ key, g[f.1]? = some (.scalar .text key)) ∧ g.Stands f.2
  | [], [], _, _ => by simp
  | (key, j) :: fields, (k, v) :: fs, h, hsymbolic =>
    List.forall_mem_cons.mpr ⟨⟨⟨key, h.1⟩, j, hsymbolic.1, h.2.1⟩, h.2.2.stands hsymbolic.2⟩

/-- The text of a scalar is its own. -/
private theorem text_of_scalar {tag : Tag} {text : String} (h : g[n]? = some (.scalar tag text)) :
    g.text n = .ok text := by
  simp [Graph.text, scalarText, h]

/-- The text of a key. -/
def keyText (g : Graph) (n : Nat) : String := (g.text n).toOption.getD ""

/-- The text of a key that is a scalar is its own. -/
theorem keyText_of_scalar {tag : Tag} {text : String} (h : g[n]? = some (.scalar tag text)) :
    g.keyText n = text := by
  rw [keyText, text_of_scalar h]
  rfl

/-- The texts of the keys of a map are the keys. -/
theorem HoldsFields.keyText : ∀ {fields : List (String × Json)} {fs : List (Nat × Nat)},
    HoldsFields g fs fields → fs.map (fun f => g.keyText f.1) = fields.map (·.1)
  | [], [], _ => rfl
  | (key, j) :: fields, (k, v) :: fs, h => by
    rw [List.map_cons, List.map_cons, h.2.2.keyText, keyText_of_scalar h.1]

/-- The cell that a node gets once it is complete, if all keys are texts. -/
def cellAt (g : Graph) (n : Nat) : Cell :=
  match g[n]? with
  | some (.scalar tag text) => .scalar ((ScalarValue.ofText tag text).toOption.getD .null)
  | some (.list _ items) => .list items
  | some (.map _ fields) => .map (fields.map fun (k, v) => (.text (g.keyText k), v))
  | none => .scalar .null

/-- The cell of a scalar holds its value. -/
theorem cellAt_scalar {tag : Tag} {text : String} {value : Scalar}
    (h : g[n]? = some (.scalar tag text)) (hvalue : ScalarValue.ofText tag text = .ok value) :
    g.cellAt n = .scalar value := by
  simp [cellAt, h, hvalue, Except.toOption]

/-- The cell of a list holds its items. -/
theorem cellAt_list {tag : Tag} {ns : List Nat} (h : g[n]? = some (.list tag ns)) :
    g.cellAt n = .list ns := by
  simp [cellAt, h]

/-- The cell of a map holds its fields, with the texts of their keys. -/
theorem cellAt_map {tag : Tag} {fs : List (Nat × Nat)} (h : g[n]? = some (.map tag fs)) :
    g.cellAt n = .map (fs.map fun (k, v) => (.text (g.keyText k), v)) := by
  simp [cellAt, h]

/-- The parts of symbolic data are symbolic data at greater numbers. -/
theorem Stands.parts (h : g.Stands n) : ∀ m ∈ (g.cellAt n).parts, n < m ∧ g.Stands m := by
  obtain ⟨j, hsymbolic, h⟩ := h
  cases j with
  | null | bool | int | float | string =>
    unfold Holds at h
    simp [cellAt, h, Cell.parts]
  | array items =>
    obtain ⟨ns, hn, hlt, hitems⟩ := h
    intro m hm
    have hmem : m ∈ ns := by simpa [cellAt_list hn, Cell.parts] using hm
    exact ⟨hlt m hmem, hitems.stands hsymbolic m hmem⟩
  | object fields =>
    obtain ⟨fs, hn, hlt, hfields⟩ := h
    intro m hm
    obtain ⟨k, hmem⟩ : ∃ k, (k, m) ∈ fs := by simpa [cellAt_map hn, Cell.parts] using hm
    exact ⟨(hlt _ hmem).2, (hfields.stands hsymbolic.2 _ hmem).2⟩

end Graph

/-! ## Merge keys -/

/-- Replacing a node by itself changes nothing. -/
private theorem Graph.modify_eq_self {g : Graph} {n : Nat} {f : Node → Node}
    (h : ∀ node, g[n]? = some node → f node = node) : g.modify n f = g := by
  refine Array.ext_getElem? fun i => ?_
  rw [Array.getElem?_modify]
  split
  · next heq =>
    subst heq
    cases hnode : g[n]? with
    | none => rfl
    | some node => rw [Option.map_some, h node hnode]
  · rfl

/-- Where all keys are texts there is nothing to merge. -/
private theorem Merge.merge_eq_self {g : Graph} {n : Nat} {fs : List (Nat × Nat)}
    (hn : g[n]? = some (.map .map fs))
    (hkeys : ∀ f ∈ fs, ∃ key, g[f.1]? = some (.scalar .text key)) : merge g n = .ok g := by
  have hfields : g.fields n = fs := by simp [Graph.fields, hn, Node.fields]
  have htag : ∀ f ∈ fs, g.tag? f.1 = some .text := by
    intro f hf
    obtain ⟨key, hkey⟩ := hkeys f hf
    simp [Graph.tag?, hkey, Node.tag]
  have hmerge : fs.any (isMerge g) = false := by
    rw [List.any_eq_false]
    intro f hf
    simp [isMerge, htag f hf]
  have hself : g.modify n (Node.withFields ([] ++ fs)) = g := by
    refine Graph.modify_eq_self fun node hnode => ?_
    obtain rfl : Node.map .map fs = node := Option.some.inj (hn.symm.trans hnode)
    rfl
  rw [merge, hfields, hmerge, if_neg (by simp), close, hfields, hself]
  -- no key stands for the value of the map, so none of them is changed
  refine congrArg Except.ok (List.foldlRecOn (motive := (· = g)) fs _ rfl fun g' hg' f hf => ?_)
  simp [hg', htag f hf]

/-! ## One node -/

namespace Building

variable {g : Graph} {level n m : Nat} {rest : List Nat} {s s' : Building} {c : Cell}

/-- What has been built at a number. -/
def cell? (s : Building) (n : Nat) : Option Cell := s.cells[n]?.join

/-- Whether all that is built in one state is built in another one. -/
def Keeps (s s' : Building) : Prop := ∀ m, (s.cell? m).isSome → (s'.cell? m).isSome

theorem Keeps.refl (s : Building) : s.Keeps s := fun _ h => h

theorem Keeps.trans {s'' : Building} (h : s.Keeps s') (h' : s'.Keeps s'') : s.Keeps s'' :=
  fun m hm => h' m (h m hm)

/-- A cell that is put is there, and the others are as they were. -/
private theorem cell?_put (hn : n < s.cells.size) :
    (s.put n c).cell? m = if n = m then some c else s.cell? m := by
  unfold cell? put
  rw [Array.getElem?_setIfInBounds]
  split <;> rfl

/-- Putting a cell keeps the others that are filled. -/
private theorem keeps_put (hn : n < s.cells.size) : s.Keeps (s.put n c) := by
  intro m hm
  rw [cell?_put hn]
  split
  · rfl
  · exact hm

/-- What holds between two steps of building: the nodes of `rest` and those that wait still get
their parts, and no node that waits has a number below `level`. -/
structure Frontier (g : Graph) (level : Nat) (rest : List Nat) (s : Building) : Prop where
  graph : s.graph = g
  size : s.cells.size = g.size
  stands : ∀ n, (s.cell? n).isSome → g.Stands n
  waiting : ∀ n ∈ s.waiting, level ≤ n ∧ g.Waits n
  complete : ∀ n c, s.cell? n = some c →
    n ∈ rest ∨ n ∈ s.waiting ∨ (c = g.cellAt n ∧ ∀ m ∈ c.parts, (s.cell? m).isSome)

/-- What is built besides one more node is the same as before. -/
private theorem Frontier.of_cell?_put (h : Frontier g level rest s) (hn : n < s.cells.size)
    {c' : Cell} (hm : (s.put n c).cell? m = some c') :
    (n = m ∧ c = c') ∨ m ∈ rest ∨ m ∈ s.waiting ∨
      (c' = g.cellAt m ∧ ∀ i ∈ c'.parts, ((s.put n c).cell? i).isSome) := by
  rw [cell?_put hn] at hm
  by_cases heq : n = m
  · rw [if_pos heq] at hm
    exact .inl ⟨heq, Option.some.inj hm⟩
  · rw [if_neg heq] at hm
    rcases h.complete m c' hm with hmem | hwaits | ⟨hc, hall⟩
    · exact .inr (.inl hmem)
    · exact .inr (.inr (.inl hwaits))
    · exact .inr (.inr (.inr ⟨hc, fun i hi => keeps_put hn i (hall i hi)⟩))

/-- After a cell is put, all that are filled still stand for values. -/
private theorem Frontier.stands_put (h : Frontier g level rest s) (hn : g.Stands n)
    (hm : ((s.put n c).cell? m).isSome) : g.Stands m := by
  rw [cell?_put (h.size ▸ hn.lt)] at hm
  by_cases heq : n = m
  · exact heq ▸ hn
  · rw [if_neg heq] at hm
    exact h.stands m hm

/-- More may wait than has to. -/
theorem Frontier.cons (h : Frontier g level rest s) (n : Nat) : Frontier g level (n :: rest) s :=
  { h with complete := fun m c hm => (h.complete m c hm).imp_left (List.mem_cons_of_mem n) }

/-- A node that is complete needs no more parts. -/
theorem Frontier.put (h : Frontier g level (n :: rest) s) (hn : g.Stands n)
    (hparts : ∀ m ∈ (g.cellAt n).parts, (s.cell? m).isSome) :
    Frontier g level rest (s.put n (g.cellAt n)) := by
  have hlt : n < s.cells.size := h.size ▸ hn.lt
  have hself : ∀ i ∈ (g.cellAt n).parts, ((s.put n (g.cellAt n)).cell? i).isSome :=
    fun i hi => keeps_put hlt i (hparts i hi)
  refine ⟨h.graph, by simpa [Building.put] using h.size, fun m hm => h.stands_put hn hm, h.waiting,
    fun m c hm => ?_⟩
  rcases h.of_cell?_put hlt hm with ⟨rfl, rfl⟩ | hmem | hdone
  · exact .inr (.inr ⟨rfl, hself⟩)
  · rcases List.mem_cons.mp hmem with rfl | hmem
    · rw [cell?_put hlt, if_pos rfl] at hm
      obtain rfl := Option.some.inj hm
      exact .inr (.inr ⟨rfl, hself⟩)
    · exact .inl hmem
  · exact .inr hdone

/-- A list or a map that gets its parts later waits for them. -/
theorem Frontier.defer (h : Frontier g level rest s) (hn : g.Waits n) (hlevel : level ≤ n) :
    Frontier g level rest (s.defer n c) := by
  have hlt : n < s.cells.size := h.size ▸ hn.stands.lt
  refine ⟨h.graph, by simpa [Building.defer, Building.put] using h.size,
    fun m hm => h.stands_put hn.stands hm, List.forall_mem_cons.mpr ⟨⟨hlevel, hn⟩, h.waiting⟩,
    fun m c' hm => ?_⟩
  rcases h.of_cell?_put hlt hm with ⟨rfl, -⟩ | hmem | hwaits | hdone
  · exact .inr (.inl List.mem_cons_self)
  · exact .inl hmem
  · exact .inr (.inl (List.mem_cons_of_mem n hwaits))
  · exact .inr (.inr hdone)

/-- The value of a scalar is that of its text. -/
private theorem scalar_of_ofText {tag : Tag} {text : String} {value : Scalar}
    (hnode : g[n]? = some (.scalar tag text)) (hvalue : ScalarValue.ofText tag text = .ok value) :
    scalar g n tag = .ok value := by
  have htext := Graph.text_of_scalar hnode
  cases tag with
  | merge | value | other => exact nomatch hvalue
  | _ => simp only [scalar, htext, hnode, bind, Except.bind, hvalue]

/-- Building a node builds it, and keeps what is built. -/
theorem Frontier.visit (h : Frontier g level rest s) (hn : g.Stands n) (hlevel : level ≤ n) :
    ∃ s', s.visit n = .ok s' ∧ Frontier g level rest s' ∧ s.Keeps s' ∧ (s'.cell? n).isSome := by
  by_cases hcell : (s.cell? n).isSome
  · exact ⟨s, if_pos hcell, h, .refl s, hcell⟩
  have hlt : n < s.cells.size := h.size ▸ hn.lt
  have hself : ∀ c, ((s.put n c).cell? n).isSome := fun c => by simp [cell?_put hlt]
  have hunvisited : ¬ (s.cells[n]?.join).isSome = true := hcell
  rw [Building.visit, if_neg hunvisited, h.graph]
  rcases hn.scalar_or_waits with ⟨tag, text, value, hnode, hvalue, hempty⟩ | hwaits
  · -- a scalar has no parts and is complete at once
    have htag : g.tag? n = some tag := by simp [Graph.tag?, hnode, Node.tag]
    have hcellAt := Graph.cellAt_scalar hnode hvalue
    refine ⟨s.put n (g.cellAt n), ?_, (h.cons n).put hn (by simp [hcellAt, Cell.parts]),
      keeps_put hlt, hself _⟩
    rw [htag, hcellAt]
    simp only [hempty, scalar_of_ofText hnode hvalue, bind, Except.bind]
  · -- a list or a map is built empty and waits
    have hdefer : ∀ c, Frontier g level rest (s.defer n c) := fun c => h.defer hwaits hlevel
    cases hwaits with
    | list hitems hheld =>
      obtain ⟨ns, hnode, -⟩ := hheld
      refine ⟨s.defer n (.list []), ?_, hdefer _, keeps_put hlt, hself _⟩
      simp [Graph.tag?, hnode, Node.tag, empty?]
    | map hfields hheld =>
      obtain ⟨fs, hnode, -⟩ := hheld
      refine ⟨s.defer n (.map []), ?_, hdefer _, keeps_put hlt, hself _⟩
      simp [Graph.tag?, hnode, Node.tag, empty?]

/-- A field is built by building its key and its value. -/
theorem Frontier.visitField (h : Frontier g level rest s) {f : Nat × Nat} {key : String}
    (hkey : g[f.1]? = some (.scalar .text key)) (hvalue : g.Stands f.2)
    (hlevel : level ≤ f.1 ∧ level ≤ f.2) :
    ∃ s', s.visitField f = .ok s' ∧ Frontier g level rest s' ∧ s.Keeps s' ∧
      ∀ m ∈ [f.1, f.2], (s'.cell? m).isSome := by
  have htag : s.graph.tag? f.1 = some .text := by simp [h.graph, Graph.tag?, hkey, Node.tag]
  obtain ⟨s₁, hs₁, hfrontier₁, hkeeps₁, hbuilt₁⟩ := h.visit ⟨.string key, trivial, hkey⟩ hlevel.1
  obtain ⟨s₂, hs₂, hfrontier₂, hkeeps₂, hbuilt₂⟩ := hfrontier₁.visit hvalue hlevel.2
  refine ⟨s₂, ?_, hfrontier₂, hkeeps₁.trans hkeeps₂, by simp [hkeeps₂ _ hbuilt₁, hbuilt₂]⟩
  simp only [Building.visitField, htag, Option.bind_some, empty?, Option.isSome_none,
    Bool.false_eq_true, if_false, Building.visitBoth, hs₁, bind, Except.bind, hs₂]

/-- Parts are built one by one, where `numbers` gives those that a part brings with it. -/
theorem Frontier.foldlM {α : Type} (visit : Building → α → Except Fault Building)
    (numbers : α → List Nat) (xs : List α)
    (hvisit : ∀ s, Frontier g level rest s → ∀ x ∈ xs,
      ∃ s', visit s x = .ok s' ∧ Frontier g level rest s' ∧ s.Keeps s' ∧
        ∀ m ∈ numbers x, (s'.cell? m).isSome) (h : Frontier g level rest s) :
    ∃ s', xs.foldlM visit s = .ok s' ∧ Frontier g level rest s' ∧ s.Keeps s' ∧
      ∀ x ∈ xs, ∀ m ∈ numbers x, (s'.cell? m).isSome := by
  induction xs generalizing s with
  | nil => exact ⟨s, rfl, h, .refl s, by simp⟩
  | cons x xs ih =>
    obtain ⟨s₁, hs₁, hfrontier₁, hkeeps₁, hbuilt₁⟩ := hvisit s h x (by simp)
    obtain ⟨s₂, hs₂, hfrontier₂, hkeeps₂, hbuilt₂⟩ :=
      ih (fun s hs x hx => hvisit s hs x (by simp [hx])) hfrontier₁
    refine ⟨s₂, ?_, hfrontier₂, hkeeps₁.trans hkeeps₂,
      List.forall_mem_cons.mpr ⟨fun m hm => hkeeps₂ m (hbuilt₁ m hm), hbuilt₂⟩⟩
    simp only [List.foldlM_cons, hs₁, bind, Except.bind, hs₂]

/-! ## The keys of a map -/

/-- A field with a key of its own comes behind the others. -/
private theorem setField_of_forall {key : Key} {set : List (Key × Nat)}
    (h : ∀ e ∈ set, e.1.same key = false) (v : Nat) : setField set key v = set ++ [(key, v)] := by
  induction set with
  | nil => rfl
  | cons e set ih =>
    obtain ⟨he, hset⟩ := List.forall_mem_cons.mp h
    rw [setField, if_neg (by simp [he]), ih hset]
    rfl

/-- Fields whose keys differ are kept as they are. -/
private theorem foldl_setField (s : Building) (fs : List (Nat × Nat)) (set : List (Key × Nat))
    (h : (set ++ fs.map fun f => (s.key f.1, f.2)).Pairwise fun e f => e.1.same f.1 = false) :
    fs.foldl (fun set (k, v) => setField set (s.key k) v) set =
      set ++ fs.map fun f => (s.key f.1, f.2) := by
  induction fs generalizing set with
  | nil => simp
  | cons f fs ih =>
    have hnew : ∀ e ∈ set, e.1.same (s.key f.1) = false := by
      intro e he
      exact (List.pairwise_append.mp h).2.2 e he (s.key f.1, f.2) (by simp)
    have hfold := ih (set ++ [(s.key f.1, f.2)]) (by simpa using h)
    rw [List.foldl_cons]
    dsimp only
    rw [setField_of_forall hnew, hfold]
    simp

/-- Keys that are texts are the same if the texts are. -/
private theorem same_of_text {k l : Key} {a b : String} (hk : k.value = .text a)
    (hl : l.value = .text b) (hne : a ≠ b) : k.same l = false := by
  simp [Key.same, hk, hl, Scalar.sameKey, Scalar.asInt?, hne]

/-- The key that a built text stands for. -/
private theorem key_value {text : String} (h : s.cell? n = some (.scalar (.text text))) :
    (s.key n).value = .text text := by
  have hcell : s.cells[n]?.join = some (.scalar (.text text)) := h
  rw [key, hcell]
  dsimp only
  split <;> rfl

/-- The fields of a map with different texts for keys. -/
private theorem keyed_eq {fields : List (String × Json)} {fs : List (Nat × Nat)}
    (h : g.HoldsFields fs fields) (hnodup : (fields.map (·.1)).Nodup)
    (hkeys : ∀ f ∈ fs, s.cell? f.1 = some (.scalar (.text (g.keyText f.1)))) :
    s.keyed fs = fs.map fun (k, v) => (.text (g.keyText k), v) := by
  -- different texts are different keys, so no field takes the place of another one
  have hdiffer : (fs.map fun f => (s.key f.1, f.2)).Pairwise fun e f => e.1.same f.1 = false := by
    rw [← h.keyText, List.Nodup, List.pairwise_map] at hnodup
    rw [List.pairwise_map]
    exact hnodup.imp_of_mem fun {e f} he hf hne =>
      same_of_text (key_value (hkeys e he)) (key_value (hkeys f hf)) hne
  rw [keyed, foldl_setField s fs [] hdiffer, List.nil_append, List.map_map]
  refine List.map_congr_left fun f hf => ?_
  simp [key_value (hkeys f hf)]

/-! ## One level -/

/-- A key that has been built is complete, because it does not wait for anything. -/
private theorem Frontier.cell?_key (h : Frontier g level rest s) (hrest : ∀ n ∈ rest, g.Waits n)
    {key : String} (hkey : g[n]? = some (.scalar .text key)) (hbuilt : (s.cell? n).isSome) :
    s.cell? n = some (.scalar (.text (g.keyText n))) := by
  obtain ⟨c, hc⟩ := Option.isSome_iff_exists.mp hbuilt
  have hwaits : ¬ g.Waits n := by
    rintro (⟨-, ns, hn, -⟩ | ⟨-, fs, hn, -⟩)
    · exact absurd (hkey.symm.trans hn) (by simp)
    · exact absurd (hkey.symm.trans hn) (by simp)
  rcases h.complete n c hc with hmem | hmem | ⟨rfl, -⟩
  · exact absurd (hrest n hmem) hwaits
  · exact absurd (h.waiting n hmem).2 hwaits
  · have hvalue : ScalarValue.ofText .text key = .ok (.text key) := rfl
    rw [hc, Graph.cellAt_scalar hkey hvalue, Graph.keyText_of_scalar hkey]

/-- A list is complete once its items are built. -/
private theorem Frontier.fill_list (h : Frontier g level (n :: rest) s) {items : List Json}
    (hitems : Json.ItemsSymbolic items) (hheld : g.Holds n (.array items))
    (hlevel : level ≤ n + 1) :
    ∃ s', s.fill n = .ok s' ∧ Frontier g level rest s' ∧ s.Keeps s' := by
  have hstands := (Graph.Waits.list hitems hheld).stands
  obtain ⟨ns, hnode, hlt, hitems'⟩ := hheld
  have hcellAt := Graph.cellAt_list hnode
  obtain ⟨s', hs', hfrontier, hkeeps, hbuilt⟩ := h.foldlM Building.visit (fun m => [m]) ns (by
    intro s hs m hm
    have hm' := hlt m hm
    simpa using hs.visit (hitems'.stands hitems m hm) (by omega))
  refine ⟨s'.put n (g.cellAt n), ?_, hfrontier.put hstands fun m hm => ?_,
    hkeeps.trans (keeps_put (hfrontier.size ▸ hstands.lt))⟩
  · simp only [Building.fill, h.graph, hnode, hs', hcellAt, bind, Except.bind]
  · have hmem : m ∈ ns := by simpa [hcellAt, Cell.parts] using hm
    exact hbuilt m hmem m (by simp)

/-- A map is complete once its keys and values are built. -/
private theorem Frontier.fill_map (h : Frontier g level (n :: rest) s)
    {fields : List (String × Json)}
    (hfields : (Json.object fields).Symbolic) (hheld : g.Holds n (.object fields))
    (hrest : ∀ n ∈ rest, g.Waits n) (hlevel : level ≤ n + 1) :
    ∃ s', s.fill n = .ok s' ∧ Frontier g level rest s' ∧ s.Keeps s' := by
  have hn := Graph.Waits.map hfields hheld
  have hpending : ∀ m ∈ n :: rest, g.Waits m := List.forall_mem_cons.mpr ⟨hn, hrest⟩
  -- The parts have greater numbers than the map, so they can wait without being in its way.
  obtain ⟨fs, hnode, hlt, hfields'⟩ := hheld
  have hkeys := hfields'.stands hfields.2
  have hcellAt := Graph.cellAt_map hnode
  obtain ⟨s', hs', hfrontier, hkeeps, hbuilt⟩ := h.foldlM Building.visitField
    (fun f => [f.1, f.2]) fs (by
      intro s hs f hf
      obtain ⟨⟨key, hkey⟩, hvalue⟩ := hkeys f hf
      have hf' := hlt f hf
      exact hs.visitField hkey hvalue ⟨by omega, by omega⟩)
  -- All keys are texts, and no two of them are the same, so each field keeps its own.
  have hkeyed : s'.keyed fs = fs.map fun (k, v) => (.text (g.keyText k), v) := by
    refine keyed_eq hfields' hfields.1 fun f hf => ?_
    obtain ⟨key, hkey⟩ := (hkeys f hf).1
    exact hfrontier.cell?_key hpending hkey (hbuilt f hf f.1 (by simp))
  refine ⟨s'.put n (g.cellAt n), ?_, hfrontier.put hn.stands fun m hm => ?_,
    hkeeps.trans (keeps_put (hfrontier.size ▸ hn.stands.lt))⟩
  · -- merging leaves the graph as it is
    have hself : ({ s with graph := g } : Building) = s := by rw [← h.graph]
    have hfs : g.fields n = fs := by simp [Graph.fields, hnode, Node.fields]
    have hmerge := Merge.merge_eq_self hnode fun f hf => (hkeys f hf).1
    simp only [Building.fill, h.graph, hnode, Building.visitFields, hmerge, bind, Except.bind,
      hself, hfs, hs', hkeyed, hcellAt]
  · obtain ⟨k, hmem⟩ : ∃ k, (k, m) ∈ fs := by simpa [hcellAt, Cell.parts] using hm
    exact hbuilt (k, m) hmem m (by simp)

/-- A list or a map that gets its parts is complete. -/
theorem Frontier.fill (h : Frontier g level (n :: rest) s) (hn : g.Waits n)
    (hrest : ∀ n ∈ rest, g.Waits n) (hlevel : level ≤ n + 1) :
    ∃ s', s.fill n = .ok s' ∧ Frontier g level rest s' ∧ s.Keeps s' := by
  cases hn with
  | list hitems hheld => exact h.fill_list hitems hheld hlevel
  | map hfields hheld => exact h.fill_map hfields hheld hrest hlevel

/-- A level is dealt with one list or map after the other. -/
private theorem Frontier.fillAll (h : Frontier g level rest s)
    (hrest : ∀ n ∈ rest, g.Waits n ∧ level ≤ n + 1) :
    ∃ s', rest.foldlM Building.fill s = .ok s' ∧ Frontier g level [] s' ∧ s.Keeps s' := by
  induction rest generalizing s with
  | nil => exact ⟨s, rfl, h, .refl s⟩
  | cons n rest ih =>
    obtain ⟨hn, hrest'⟩ := List.forall_mem_cons.mp hrest
    obtain ⟨s₁, hs₁, hfrontier₁, hkeeps₁⟩ := h.fill hn.1 (fun m hm => (hrest' m hm).1) hn.2
    obtain ⟨s₂, hs₂, hfrontier₂, hkeeps₂⟩ := ih hfrontier₁ hrest'
    refine ⟨s₂, ?_, hfrontier₂, hkeeps₁.trans hkeeps₂⟩
    simp only [List.foldlM_cons, hs₁, bind, Except.bind, hs₂]

/-! ## All levels -/

/-- The next level starts with what waits after the last one. -/
theorem Frontier.next (h : Frontier g level [] s) :
    Frontier g (level + 1) s.waiting.reverse { s with waiting := [] } where
  graph := h.graph
  size := h.size
  stands := h.stands
  waiting := by simp
  complete m c hm := by
    rcases h.complete m c hm with hmem | hmem | hdone
    · simp at hmem
    · exact .inl (List.mem_reverse.mpr hmem)
    · exact .inr (.inr hdone)

/-- In the end nothing waits, and what has been built is complete. -/
theorem run_spec (fuel level : Nat) (s : Building) (h : Frontier g level [] s)
    (hfuel : g.size ≤ level + fuel) :
    ∃ s' level', s.run fuel = .ok s' ∧ Frontier g level' [] s' ∧ s'.waiting = [] ∧ s.Keeps s' := by
  induction fuel generalizing level s with
  | zero =>
    -- a node that waits would have a number beyond all nodes
    have hnone : s.waiting = [] := List.eq_nil_iff_forall_not_mem.mpr fun n hn => by
      obtain ⟨hlevel, hwaits⟩ := h.waiting n hn
      have := hwaits.stands.lt
      omega
    exact ⟨s, level, rfl, h, hnone, .refl s⟩
  | succ fuel ih =>
    cases hwaiting : s.waiting with
    | nil => exact ⟨s, level, by rw [run, hwaiting], h, hwaiting, .refl s⟩
    | cons n ns =>
      have hrest : ∀ m ∈ s.waiting.reverse, g.Waits m ∧ level + 1 ≤ m + 1 := fun m hm => by
        obtain ⟨hlevel, hwaits⟩ := h.waiting m (List.mem_reverse.mp hm)
        exact ⟨hwaits, by omega⟩
      obtain ⟨s₁, hs₁, hfrontier₁, hkeeps₁⟩ := h.next.fillAll hrest
      obtain ⟨s₂, level₂, hs₂, hfrontier₂, hwaiting₂, hkeeps₂⟩ :=
        ih (level + 1) s₁ hfrontier₁ (by omega)
      refine ⟨s₂, level₂, ?_, hfrontier₂, hwaiting₂, fun m hm => hkeeps₂ m (hkeeps₁ m hm)⟩
      rw [hwaiting] at hs₁
      simp only [run, hwaiting, hs₁, bind, Except.bind, hs₂]

end Building

end VersionGate.Yaml

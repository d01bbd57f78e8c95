import VersionGate.Config.Loading
import VersionGate.Proofs.Data.Writable
import VersionGate.Proofs.Traversal

/-!
# Which data describes a tree

A tree is described by a map: a name that is a text or nothing, a list of values and a list of nodes
that describe trees in turn. Where there is no list, or something that counts as nothing, there are
no items. `Describes` says which tree it is, item by item, and `IsTree` only that it is one. Loading
takes exactly the data that describes a tree, and gives this tree.

Data can have labels, and a map with the label of one that it is inside of is this map again. It
describes no tree there: a tree does not contain itself. In data without labels no map is inside
itself, and `inside` does not matter.

## Key results

- `nameOf_eq_ok_iff`, `itemsOf_eq_ok_iff`: names and lists that are taken
- `Node.ofDatum_eq_ok_iff`: which data is taken, and for which tree
- `exists_describes_iff`: data of the right shape describes a tree, if it can be written
-/

namespace VersionGate.Config

open Data

/-! ## The parts of a description -/

/-- The name in some fields: a text, or none where it is missing or null. -/
inductive HasName (fields : List (Scalar × Datum)) : Option String → Prop
  | absent : Datum.field? "name" fields = none → HasName fields none
  | null : Datum.field? "name" fields = some (.scalar .null) → HasName fields none
  | text {s : String} : Datum.field? "name" fields = some (.scalar (.text s)) →
      HasName fields (some s)

/-- Data that counts as nothing where a list should stand. -/
def IsNothing : Datum → Prop
  | .scalar s => s.isFalsy = true
  | .list _ items => items = []
  | .map _ fields => fields = []
  | .set elements => elements = []
  | .pairs _ items => items = []

/-- The items under a key of some fields: those of a list, or none where there is nothing. -/
inductive HasItems (key : String) (fields : List (Scalar × Datum)) : List Datum → Prop
  | absent : Datum.field? key fields = none → HasItems key fields []
  | nothing {d : Datum} : Datum.field? key fields = some d → IsNothing d → HasItems key fields []
  | list {label : Option Nat} {items : List Datum} :
      Datum.field? key fields = some (.list label items) → HasItems key fields items

/-- The text of a value with some fields: empty where it is missing or null, and otherwise that of
the data. -/
inductive HasText (fields : List (Scalar × Datum)) : String → Prop
  | absent : Datum.field? "value" fields = none → HasText fields ""
  | null : Datum.field? "value" fields = some (.scalar .null) → HasText fields ""
  | data {d : Datum} {text : String} : Datum.field? "value" fields = some d →
      d ≠ .scalar .null → d.text = .ok text → HasText fields text

/-- Data that describes a value. -/
inductive Value.Describes : Datum → Value → Prop
  | map {label : Option Nat} {fields : List (Scalar × Datum)} {name : Option String}
      {text : String} (hname : HasName fields name) (htext : HasText fields text) :
      Value.Describes (.map label fields) ⟨name, text⟩

/-- Data that describes a tree, inside of the maps with the labels in `inside`. -/
inductive DescribesIn : List Nat → Datum → Node → Prop
  | map {inside : List Nat} {label : Option Nat} {fields : List (Scalar × Datum)}
      {name : Option String} {vs : List Datum} {values : List Value} {ns : List Datum}
      {nodes : List Node} (hnew : Datum.isInside inside label = false)
      (hname : HasName fields name)
      (hvs : HasItems "values" fields vs) (hvalues : List.Forall₂ Value.Describes vs values)
      (hns : HasItems "nodes" fields ns) (hlength : ns.length = nodes.length)
      (hnodes : ∀ p ∈ ns.zip nodes, DescribesIn (label.toList ++ inside) p.1 p.2) :
      DescribesIn inside (.map label fields) ⟨name, values, nodes⟩

/-- Data that describes a tree. -/
def Describes (d : Datum) (tree : Node) : Prop := DescribesIn [] d tree

/-- Data that has the shape of a value: a map with a name that is missing, null or a text. -/
inductive IsValue : Datum → Prop
  | map {label : Option Nat} {fields : List (Scalar × Datum)} {name : Option String}
      (hname : HasName fields name) : IsValue (.map label fields)

/-- Data that has the shape of a tree inside of the maps with the labels in `inside`: a map that is
none of these, with such a name, with values and with trees. -/
inductive IsTreeIn : List Nat → Datum → Prop
  | map {inside : List Nat} {label : Option Nat} {fields : List (Scalar × Datum)}
      {name : Option String} {vs ns : List Datum} (hnew : Datum.isInside inside label = false)
      (hname : HasName fields name)
      (hvs : HasItems "values" fields vs) (hvalues : ∀ v ∈ vs, IsValue v)
      (hns : HasItems "nodes" fields ns) (hnodes : ∀ n ∈ ns, IsTreeIn (label.toList ++ inside) n) :
      IsTreeIn inside (.map label fields)

/-- Data that has the shape of a tree. -/
def IsTree (d : Datum) : Prop := IsTreeIn [] d

/-- Describing a tree goes item by item through the children. -/
private theorem describesIn_map_iff {inside : List Nat} {label : Option Nat}
    {fields : List (Scalar × Datum)} {tree : Node} :
    DescribesIn inside (.map label fields) tree ↔
      Datum.isInside inside label = false ∧ HasName fields tree.name ∧
        (∃ vs, HasItems "values" fields vs ∧ List.Forall₂ Value.Describes vs tree.values) ∧
        ∃ ns, HasItems "nodes" fields ns ∧
          List.Forall₂ (DescribesIn (label.toList ++ inside)) ns tree.nodes := by
  obtain ⟨name, values, nodes⟩ := tree
  constructor
  · rintro ⟨hnew, hname, hvs, hvalues, hns, hlength, hnodes⟩
    exact ⟨hnew, hname, ⟨_, hvs, hvalues⟩, _, hns,
      List.forall₂_iff_zip.mpr ⟨hlength, fun h => hnodes _ h⟩⟩
  · rintro ⟨hnew, hname, ⟨vs, hvs, hvalues⟩, ns, hns, hnodes⟩
    obtain ⟨hlength, hnodes⟩ := List.forall₂_iff_zip.mp hnodes
    exact .map hnew hname hvs hvalues hns hlength fun p hp => hnodes hp

/-! ## Loading step by step -/

/-- The items under a key, or the fault of what stands there. -/
def itemsOf (refuse : Kind → LoadFault) (key : String) (fields : List (Scalar × Datum)) :
    Except LoadFault (List Datum) :=
  match Datum.field? key fields with
  | none => .ok []
  | some d => partsOf refuse d

/-- The values are the items under their key, one by one. -/
private theorem valuesOf_eq (fields : List (Scalar × Datum)) :
    valuesOf fields = itemsOf .notValue "values" fields >>= List.mapM Value.ofDatum := by
  unfold valuesOf itemsOf
  cases Datum.field? "values" fields <;> rfl

section

variable (inside : List Nat)

/-- Items are loaded one by one. -/
private theorem nodesOfItems_eq (items : List Datum) :
    nodesOfItems inside items = items.mapM (Node.ofDatumIn inside) := by
  induction items with
  | nil => rfl
  | cons d ds ih =>
    rw [nodesOfItems, ih, List.mapM_cons]
    rfl

/-- What stands where the list of the children should is taken or refused as that of the values. -/
private theorem nodesOfPart_eq (d : Datum) :
    nodesOfPart inside d = partsOf .notNode d >>= List.mapM (Node.ofDatumIn inside) := by
  cases d with
  | list label items =>
    rw [nodesOfPart, nodesOfItems_eq]
    rfl
  | scalar s =>
    -- Without a list there are either no items or a fault.
    show (partsOf .notNode (.scalar s) >>= fun _ => .ok []) = _
    unfold partsOf
    by_cases hs : s.isFalsy = true
    · simp only [if_pos hs]
      rfl
    · simp only [if_neg hs]
      cases s <;> rfl
  | map label fields =>
    show (partsOf .notNode (.map label fields) >>= fun _ => .ok []) = _
    cases fields <;> rfl
  | set elements =>
    show (partsOf .notNode (.set elements) >>= fun _ => .ok []) = _
    cases elements <;> rfl
  | pairs label items =>
    show (partsOf .notNode (.pairs label items) >>= fun _ => .ok []) = _
    cases items <;> rfl

/-- The children are the items under their key, one by one. -/
private theorem nodesOf_eq (fields : List (Scalar × Datum)) :
    nodesOf inside fields =
      itemsOf .notNode "nodes" fields >>= List.mapM (Node.ofDatumIn inside) := by
  unfold itemsOf
  induction fields with
  | nil => rfl
  | cons field fields ih =>
    obtain ⟨key, d⟩ := field
    rw [nodesOf, Datum.field?]
    by_cases hkey : key = .text "nodes"
    · rw [if_pos hkey, if_pos hkey]
      exact nodesOfPart_eq inside d
    · rw [if_neg hkey, if_neg hkey]
      exact ih

end

variable {inside : List Nat} {label : Option Nat} {fields : List (Scalar × Datum)}

/-- Loading a new map takes its name first, then its values, then its children. -/
theorem Node.ofDatumIn_map (hnew : Datum.isInside inside label = false) :
    Node.ofDatumIn inside (.map label fields) = (do
      let name ← nameOf .nodeName fields
      let values ← itemsOf .notValue "values" fields >>= List.mapM Value.ofDatum
      let nodes ← itemsOf .notNode "nodes" fields >>=
        List.mapM (Node.ofDatumIn (label.toList ++ inside))
      .ok ⟨name, values, nodes⟩) := by
  rw [Node.ofDatumIn, hnew, valuesOf_eq, nodesOf_eq]
  rfl

/-- Loading never ends at a map that it is already inside of. -/
theorem Node.ofDatumIn_again (h : Datum.isInside inside label = true) :
    Node.ofDatumIn inside (.map label fields) = .error .endless := by
  rw [Node.ofDatumIn, if_pos h]

/-! ## What is taken -/

/-- A name that is described is taken, and no other one is. -/
theorem nameOf_eq_ok_iff {refuse : Kind → String → LoadFault} {name : Option String} :
    nameOf refuse fields = .ok name ↔ HasName fields name := by
  constructor
  · intro h
    unfold nameOf at h
    split at h
    · next hd => exact Except.ok.inj h ▸ .absent hd
    · next hd => exact Except.ok.inj h ▸ .null hd
    · next hd => exact Except.ok.inj h ▸ .text hd
    · split at h <;> contradiction
  · rintro (hd | hd | hd)
    all_goals simp only [nameOf, hd]

/-- The items that are taken are those under the key. -/
theorem itemsOf_eq_ok_iff {refuse : Kind → LoadFault} {key : String} {items : List Datum} :
    itemsOf refuse key fields = .ok items ↔ HasItems key fields items := by
  constructor
  · intro h
    unfold itemsOf at h
    split at h
    · next hd => exact Except.ok.inj h ▸ .absent hd
    · next d hd =>
      -- What stands under the key is a list, or it is nothing of some kind.
      unfold partsOf at h
      split at h
      · exact Except.ok.inj h ▸ .list hd
      · exact Except.ok.inj h ▸ .nothing hd rfl
      · exact Except.ok.inj h ▸ .nothing hd rfl
      · exact Except.ok.inj h ▸ .nothing hd rfl
      · contradiction
      · contradiction
      · contradiction
      · split at h
        · next hs => exact Except.ok.inj h ▸ .nothing hd hs
        · split at h <;> contradiction
  · rintro (hd | ⟨hd, hnothing⟩ | hd)
    · simp only [itemsOf, hd]
    · next d =>
      -- Each kind of data has one form that is nothing.
      cases d with
      | scalar s =>
        have hs : s.isFalsy = true := hnothing
        simp only [itemsOf, hd, partsOf, hs, if_true]
      | list label items =>
        obtain rfl : items = [] := hnothing
        simp only [itemsOf, hd, partsOf]
      | map label parts =>
        obtain rfl : parts = [] := hnothing
        simp only [itemsOf, hd, partsOf]
      | set elements =>
        obtain rfl : elements = [] := hnothing
        simp only [itemsOf, hd, partsOf]
      | pairs label items =>
        obtain rfl : items = [] := hnothing
        simp only [itemsOf, hd, partsOf]
    · simp only [itemsOf, hd, partsOf]

/-- The data that is taken as a value describes it. -/
theorem Value.ofDatum_eq_ok_iff {d : Datum} {v : Value} :
    Value.ofDatum d = .ok v ↔ Value.Describes d v := by
  constructor
  · intro h
    unfold Value.ofDatum at h
    split at h
    · rw [Except.bind_eq_ok_iff] at h
      obtain ⟨name, hname, h⟩ := h
      have hname := nameOf_eq_ok_iff.mp hname
      split at h
      · next hd => exact Except.ok.inj h ▸ .map hname (.absent hd)
      · next hd => exact Except.ok.inj h ▸ .map hname (.null hd)
      · next d hnull hd =>
        split at h
        · next text htext => exact Except.ok.inj h ▸ .map hname (.data hd hnull htext)
        · contradiction
    · contradiction
  · rintro ⟨hname, hd | hd | ⟨hd, hnull, htext⟩⟩
    · simp only [Value.ofDatum, nameOf_eq_ok_iff.mpr hname, bind, Except.bind, hd]
    · simp only [Value.ofDatum, nameOf_eq_ok_iff.mpr hname, bind, Except.bind, hd]
    · simp only [Value.ofDatum, nameOf_eq_ok_iff.mpr hname, bind, Except.bind, hd, htext]

/-- The rows that are taken one by one. -/
theorem mapM_ofDatum_eq_ok_iff {vs : List Datum} {values : List Value} :
    vs.mapM Value.ofDatum = .ok values ↔ List.Forall₂ Value.Describes vs values := by
  rw [List.mapM_eq_ok_iff]
  simp only [Value.ofDatum_eq_ok_iff]

/-! ## Trees -/

/-- What is in a field is smaller than the fields. -/
private theorem sizeOf_lt_of_field? {key : String} {d : Datum}
    (h : Datum.field? key fields = some d) :
    sizeOf d < sizeOf fields := by
  induction fields with
  | nil => exact nomatch h
  | cons field fields ih =>
    obtain ⟨k, first⟩ := field
    rw [Datum.field?] at h
    by_cases hk : k = .text key
    · rw [if_pos hk, Option.some.injEq] at h
      subst h
      simp only [List.cons.sizeOf_spec, Prod.mk.sizeOf_spec]
      omega
    · rw [if_neg hk] at h
      have hlt := ih h
      simp only [List.cons.sizeOf_spec]
      omega

/-- To show something of all data, it may be assumed of the items under `nodes`. -/
theorem datum_induction {p : Datum → Prop}
    (h : ∀ d, (∀ label fields items, d = .map label fields → HasItems "nodes" fields items →
      ∀ n ∈ items, p n) → p d) (d : Datum) : p d := by
  refine (measure fun d : Datum => sizeOf d).wf.induction d fun d ih => h d ?_
  rintro label fields items rfl hitems n hn
  refine ih n ?_
  -- An item is smaller than its list, and the list is smaller than the map that it is in.
  cases hitems with
  | absent | nothing => exact nomatch hn
  | list hfield =>
    have hlt := sizeOf_lt_of_field? hfield
    have hitem := List.sizeOf_lt_of_mem hn
    show sizeOf n < sizeOf (Datum.map label fields)
    simp only [Datum.list.sizeOf_spec, Datum.map.sizeOf_spec] at hlt ⊢
    omega

/-- The data that is taken as a tree describes it, whatever it is inside of. -/
theorem Node.ofDatumIn_eq_ok_iff {d : Datum} : ∀ {inside : List Nat} {tree : Node},
    Node.ofDatumIn inside d = .ok tree ↔ DescribesIn inside d tree := by
  induction d using datum_induction with
  | h d ih =>
  rintro inside ⟨name, values, nodes⟩
  by_cases hmap : ∃ label fields, d = .map label fields
  · obtain ⟨label, fields, rfl⟩ := hmap
    rw [describesIn_map_iff]
    cases hnew : Datum.isInside inside label with
    | true =>
      rw [Node.ofDatumIn_again hnew]
      exact ⟨nofun, fun h => nomatch h.1⟩
    | false =>
      -- The children are smaller than the map, even if they are not its parts but parts of these.
      have hchildren : ∀ {ns}, HasItems "nodes" fields ns →
          (ns.mapM (Node.ofDatumIn (label.toList ++ inside)) = .ok nodes ↔
            List.Forall₂ (DescribesIn (label.toList ++ inside)) ns nodes) := fun hns => by
        rw [List.mapM_eq_ok_iff]
        exact List.forall₂_congr_of_mem (fun n hn node => ih label fields _ rfl hns n hn) nodes
      rw [Node.ofDatumIn_map hnew]
      simp only [Except.bind_eq_ok_iff, Except.ok.injEq, Node.mk.injEq, nameOf_eq_ok_iff,
        itemsOf_eq_ok_iff, mapM_ofDatum_eq_ok_iff, true_and]
      constructor
      · rintro ⟨_, hname, _, ⟨vs, hvs, hvalues⟩, _, ⟨ns, hns, hnodes⟩, rfl, rfl, rfl⟩
        exact ⟨hname, ⟨vs, hvs, hvalues⟩, ns, hns, (hchildren hns).mp hnodes⟩
      · rintro ⟨hname, ⟨vs, hvs, hvalues⟩, ns, hns, hnodes⟩
        exact ⟨_, hname, _, ⟨vs, hvs, hvalues⟩, _, ⟨ns, hns, (hchildren hns).mpr hnodes⟩, rfl, rfl,
          rfl⟩
  · -- Only maps describe trees.
    cases d with
    | map label fields => exact absurd ⟨label, fields, rfl⟩ hmap
    | scalar | list | set | pairs => exact ⟨nofun, nofun⟩

/-- The data that is taken as a tree describes it. -/
theorem Node.ofDatum_eq_ok_iff {d : Datum} {tree : Node} :
    Node.ofDatum d = .ok tree ↔ Describes d tree := Node.ofDatumIn_eq_ok_iff

/-! ## Shapes -/

/-- Items can be written if the fields that they are in can. -/
theorem writable_of_hasItems {key : String} {items : List Datum} (h : FieldsWritable fields)
    (hitems : HasItems key fields items) : ∀ d ∈ items, d.Writable := by
  cases hitems with
  | absent | nothing => simp
  | list hfield =>
    have hlist := writable_of_field? h hfield
    rwa [Datum.Writable, itemsWritable_iff] at hlist

/-- Data of the shape of a value describes one, if it can be written. -/
theorem Value.exists_describes_iff {d : Datum} (h : d.Writable) :
    (∃ v, Value.Describes d v) ↔ IsValue d := by
  constructor
  · rintro ⟨-, hname, -⟩
    exact .map hname
  · rintro ⟨hname⟩
    next label fields name =>
      have htext : ∃ text, HasText fields text := by
        cases hfield : Datum.field? "value" fields with
        | none => exact ⟨_, .absent hfield⟩
        | some d =>
          by_cases hnull : d = .scalar .null
          · exact ⟨_, .null (hnull ▸ hfield)⟩
          · obtain ⟨text, htext⟩ := d.exists_text (writable_of_field? h hfield)
            exact ⟨text, .data hfield hnull htext⟩
      obtain ⟨text, htext⟩ := htext
      exact ⟨_, .map hname htext⟩

/-- Data of the shape of a tree describes one if it can be written, whatever it is inside of. -/
private theorem exists_describesIn_iff {d : Datum} (h : d.Writable) :
    ∀ {inside : List Nat}, (∃ tree, DescribesIn inside d tree) ↔ IsTreeIn inside d := by
  -- In both directions the values and the children are dealt with one by one.
  induction d using datum_induction with
  | h d ih =>
  intro inside
  constructor
  · rintro ⟨-, hnew, hname, hvs, hvalues, hns, hlength, hnodes⟩
    have hvalues := List.exists_forall₂_iff.mp ⟨_, hvalues⟩
    have hnodes := List.exists_forall₂_iff.mp
      ⟨_, List.forall₂_iff_zip.mpr ⟨hlength, fun h => hnodes _ h⟩⟩
    refine .map hnew hname hvs (fun v hv => ?_) hns (fun n hn => ?_)
    · exact (Value.exists_describes_iff (writable_of_hasItems h hvs v hv)).mp (hvalues v hv)
    · exact (ih _ _ _ rfl hns n hn (writable_of_hasItems h hns n hn)).mp (hnodes n hn)
  · rintro ⟨hnew, hname, hvs, hvalues, hns, hnodes⟩
    obtain ⟨values, hvalues⟩ := List.exists_forall₂_iff.mpr fun v hv =>
      (Value.exists_describes_iff (writable_of_hasItems h hvs v hv)).mpr (hvalues v hv)
    obtain ⟨nodes, hnodes⟩ := List.exists_forall₂_iff.mpr fun n hn =>
      (ih _ _ _ rfl hns n hn (writable_of_hasItems h hns n hn)).mpr (hnodes n hn)
    exact ⟨⟨_, values, nodes⟩, describesIn_map_iff.mpr
      ⟨hnew, hname, ⟨_, hvs, hvalues⟩, _, hns, hnodes⟩⟩

/-- Data of the shape of a tree describes one, if it can be written. -/
theorem exists_describes_iff {d : Datum} (h : d.Writable) :
    (∃ tree, Describes d tree) ↔ IsTree d := exists_describesIn_iff h

end VersionGate.Config

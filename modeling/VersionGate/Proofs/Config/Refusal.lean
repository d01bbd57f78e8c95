import VersionGate.CommandLine.Fault
import VersionGate.Proofs.Config.Description
import VersionGate.Proofs.Config.Loading
import VersionGate.Proofs.Json.Integers

/-!
# Why data is refused as a tree

Loading goes through a node in the order name, values, children, and through each child in the same
way, and stops at the first thing that it cannot take. `Reaches` is how far it gets: to a place such
that everything in front of it is described properly. `NodeRefused` is what is wrong with a place
apart from its children. Loading never ends if it gets to a map that it is already inside of, which
only data with labels can have.

What is wrong with data that is no tree is mostly that it is malformed, and the command line
explains this. But a number or a date where a list should stand is only found when its items are
asked for, and that is a fault of another sort.

## Key results

- `Node.ofDatum_eq_error_iff`: the fault is that of the first place that is refused
- `ofDatum_takes_descriptions`: which data is taken, for which tree, and what is wrong with the rest
- `ofDatum_malformed_unless_scalar_for_list`: when the fault is of another sort
-/

namespace VersionGate.Config

open Data

/-! ## What is refused -/

/-- What is wrong with a name that is there and is no text. -/
inductive NameRefused (refuse : Kind → String → LoadFault) (fields : List (Scalar × Datum)) :
    LoadFault → Prop
  | noText {d : Datum} {shown : String} (hd : Datum.field? "name" fields = some d)
      (hnull : d ≠ .scalar .null) (htext : ∀ s, d ≠ .scalar (.text s))
      (hshown : d.shown = .ok shown) : NameRefused refuse fields (refuse d.kind shown)
  | tooLong {d : Datum} {numeral : Decimal.TooLong} (hd : Datum.field? "name" fields = some d)
      (hnull : d ≠ .scalar .null) (htext : ∀ s, d ≠ .scalar (.text s))
      (hshown : d.shown = .error numeral) : NameRefused refuse fields (.tooLong numeral)

/-- A scalar under a key that has neither characters nor bytes and does not count as nothing. -/
structure HasScalar (key : String) (fields : List (Scalar × Datum)) (s : Scalar) : Prop where
  field : Datum.field? key fields = some (.scalar s)
  something : s.isFalsy = false
  noText : s.kind ≠ .text
  noBytes : s.kind ≠ .bytes

/-- What is wrong with something that stands where a list should. A text is gone through by its
characters, bytes by numbers, a map by its keys, a set by its elements and pairs by pairs, and the
first of these is no map. -/
inductive ItemsRefused (refuse : Kind → LoadFault) (key : String)
    (fields : List (Scalar × Datum)) : LoadFault → Prop
  | text {s : String} (hd : Datum.field? key fields = some (.scalar (.text s))) (hs : s ≠ "") :
      ItemsRefused refuse key fields (refuse .text)
  | bytes {bs : List UInt8} (hd : Datum.field? key fields = some (.scalar (.bytes bs)))
      (hbs : bs ≠ []) : ItemsRefused refuse key fields (refuse .int)
  | map {label : Option Nat} {first : Scalar} {d : Datum} {rest : List (Scalar × Datum)}
      (hd : Datum.field? key fields = some (.map label ((first, d) :: rest))) :
      ItemsRefused refuse key fields (refuse first.kind)
  | set {first : Scalar} {rest : List Scalar}
      (hd : Datum.field? key fields = some (.set (first :: rest))) :
      ItemsRefused refuse key fields (refuse first.kind)
  | pairs {label : Option Nat} {first : Datum × Datum} {rest : List (Datum × Datum)}
      (hd : Datum.field? key fields = some (.pairs label (first :: rest))) :
      ItemsRefused refuse key fields (refuse .pair)
  | scalar {s : Scalar} (hs : HasScalar key fields s) :
      ItemsRefused refuse key fields (.notList s.kind)

/-- What is wrong with data in place of a value. -/
inductive ValueRefused : Datum → LoadFault → Prop
  | notMap {d : Datum} (hd : ∀ label fields, d ≠ .map label fields) :
      ValueRefused d (.notValue d.kind)
  | name {label : Option Nat} {fields : List (Scalar × Datum)} {fault : LoadFault}
      (hname : NameRefused .valueName fields fault) : ValueRefused (.map label fields) fault
  | text {label : Option Nat} {fields : List (Scalar × Datum)} {name : Option String} {d : Datum}
      {numeral : Decimal.TooLong} (hname : HasName fields name)
      (hd : Datum.field? "value" fields = some d) (htext : d.text = .error numeral) :
      ValueRefused (.map label fields) (.tooLong numeral)

/-- What is wrong with the fields of a node, apart from its children: its name, its values or what
should be the list of its children. Each of these only counts if what comes before it is all
right. -/
inductive FieldsRefused (fields : List (Scalar × Datum)) : LoadFault → Prop
  | name {fault : LoadFault} (hname : NameRefused .nodeName fields fault) :
      FieldsRefused fields fault
  | noValues {name : Option String} {fault : LoadFault} (hname : HasName fields name)
      (hvs : ItemsRefused .notValue "values" fields fault) : FieldsRefused fields fault
  | value {name : Option String} {before after : List Datum} {v : Datum} {fault : LoadFault}
      (hname : HasName fields name) (hvs : HasItems "values" fields (before ++ v :: after))
      (hbefore : ∀ u ∈ before, ∃ value, Value.Describes u value) (hv : ValueRefused v fault) :
      FieldsRefused fields fault
  | noNodes {name : Option String} {vs : List Datum} {values : List Value} {fault : LoadFault}
      (hname : HasName fields name)
      (hvs : HasItems "values" fields vs) (hvalues : List.Forall₂ Value.Describes vs values)
      (hns : ItemsRefused .notNode "nodes" fields fault) : FieldsRefused fields fault

/-- What is wrong with data in place of a node, apart from its children, when it is inside of the
maps with some labels: it is no map, it is one of these, or something is wrong with its fields. -/
inductive NodeRefused (inside : List Nat) : Datum → LoadFault → Prop
  | notMap {d : Datum} (hd : ∀ label fields, d ≠ .map label fields) :
      NodeRefused inside d (.notNode d.kind)
  | again {label : Option Nat} {fields : List (Scalar × Datum)}
      (hagain : Datum.isInside inside label = true) :
      NodeRefused inside (.map label fields) .endless
  | fields {label : Option Nat} {fields : List (Scalar × Datum)} {fault : LoadFault}
      (hnew : Datum.isInside inside label = false) (h : FieldsRefused fields fault) :
      NodeRefused inside (.map label fields) fault

/-- How far loading gets, from data and the maps that it is inside of to a place and the maps that
this is inside of: to the data itself, and into a child if the map is a new one and the name, the
values and the children in front of it are all right. -/
inductive ReachesFrom : List Nat → Datum → List Nat → Datum → Prop
  | here {inside : List Nat} {d : Datum} : ReachesFrom inside d inside d
  | child {inside inside' : List Nat} {label : Option Nat} {fields : List (Scalar × Datum)}
      {name : Option String} {vs : List Datum} {values : List Value} {before after : List Datum}
      {n place : Datum} (hnew : Datum.isInside inside label = false) (hname : HasName fields name)
      (hvs : HasItems "values" fields vs) (hvalues : List.Forall₂ Value.Describes vs values)
      (hns : HasItems "nodes" fields (before ++ n :: after))
      (hbefore : ∀ m ∈ before, ∃ tree, DescribesIn (label.toList ++ inside) m tree)
      (hplace : ReachesFrom (label.toList ++ inside) n inside' place) :
      ReachesFrom inside (.map label fields) inside' place

/-- How far loading gets in some data. -/
def Reaches (d : Datum) (inside : List Nat) (place : Datum) : Prop := ReachesFrom [] d inside place

/-! ## Faults step by step -/

variable {fields : List (Scalar × Datum)} {fault : LoadFault}

/-- The fault of a name. -/
private theorem nameOf_eq_error_iff {refuse : Kind → String → LoadFault} :
    nameOf refuse fields = .error fault ↔ NameRefused refuse fields fault := by
  constructor
  · intro h
    unfold nameOf at h
    split at h
    · contradiction
    · contradiction
    · contradiction
    · -- No name, null and a text are taken. Anything else is refused with what it looks like, if
      -- that can be written.
      next d hnull htext hd =>
      split at h
      · next shown hshown => exact Except.error.inj h ▸ .noText hd hnull htext hshown
      · next numeral hshown => exact Except.error.inj h ▸ .tooLong hd hnull htext hshown
  · intro h
    cases h with
    | noText hd hnull htext hshown | tooLong hd hnull htext hshown =>
      unfold nameOf
      split
      · next h => exact nomatch h.symm.trans hd
      · next h => exact absurd (Option.some.inj (hd.symm.trans h)) hnull
      · next s h => exact absurd (Option.some.inj (hd.symm.trans h)) (htext s)
      · next h =>
        obtain rfl := Option.some.inj (hd.symm.trans h)
        simp only [hshown]

/-- The fault of what should be a list. -/
private theorem itemsOf_eq_error_iff {refuse : Kind → LoadFault} {key : String} :
    itemsOf refuse key fields = .error fault ↔ ItemsRefused refuse key fields fault := by
  constructor
  · intro h
    unfold itemsOf at h
    split at h
    · contradiction
    · next d hd =>
      unfold partsOf at h
      split at h
      · -- a list, and the empty map, set and pairs, are taken
        contradiction
      · contradiction
      · contradiction
      · contradiction
      · exact Except.error.inj h ▸ .map hd
      · exact Except.error.inj h ▸ .set hd
      · exact Except.error.inj h ▸ .pairs hd
      · next s =>
        by_cases hs : s.isFalsy = true
        · simp only [hs, if_true, reduceCtorEq] at h
        · rw [if_neg hs] at h
          -- A text has characters, and anything else has no items to ask for.
          cases s with
          | text s =>
            refine Except.error.inj h ▸ .text hd ?_
            rintro rfl
            exact hs rfl
          | bytes bs =>
            refine Except.error.inj h ▸ .bytes hd ?_
            rintro rfl
            exact hs rfl
          | _ => exact Except.error.inj h ▸ .scalar ⟨hd, Bool.eq_false_iff.mpr hs, nofun, nofun⟩
  · intro h
    cases h with
    | @text s hd hs =>
      have hfalsy : (Scalar.text s).isFalsy = false := by simpa [Scalar.isFalsy] using hs
      simp only [itemsOf, hd, partsOf, hfalsy, Bool.false_eq_true, if_false]
    | @bytes bs hd hbs =>
      have hfalsy : (Scalar.bytes bs).isFalsy = false := by simpa [Scalar.isFalsy] using hbs
      simp only [itemsOf, hd, partsOf, hfalsy, Bool.false_eq_true, if_false]
    | map hd | set hd | pairs hd => simp only [itemsOf, hd, partsOf]
    | @scalar s hs =>
      simp only [itemsOf, hs.field, partsOf, hs.something, Bool.false_eq_true, if_false]
      cases s with
      | text s => exact absurd rfl hs.noText
      | bytes bs => exact absurd rfl hs.noBytes
      | _ => rfl

/-- The fault of a value. -/
private theorem Value.ofDatum_eq_error_iff {d : Datum} :
    Value.ofDatum d = .error fault ↔ ValueRefused d fault := by
  constructor
  · intro h
    -- The name is looked at before the text is.
    unfold Value.ofDatum at h
    split at h
    · rw [Except.bind_eq_error_iff] at h
      obtain hname | ⟨name, hname, h⟩ := h
      · exact .name (nameOf_eq_error_iff.mp hname)
      · split at h
        · contradiction
        · contradiction
        · next d hnull hd =>
          split at h
          · contradiction
          · next numeral htext =>
            exact Except.error.inj h ▸ .text (nameOf_eq_ok_iff.mp hname) hd htext
    · next hmap => exact Except.error.inj h ▸ .notMap hmap
  · intro h
    cases h with
    | notMap hd =>
      cases d with
      | scalar | list | set | pairs => rfl
      | map label fields => exact absurd rfl (hd label fields)
    | name hname => simp only [Value.ofDatum, nameOf_eq_error_iff.mpr hname, bind, Except.bind]
    | text hname hd htext =>
      simp only [Value.ofDatum, nameOf_eq_ok_iff.mpr hname, bind, Except.bind, hd]
      -- Null is the one piece of data whose text is not asked for, and it has one.
      split
      · contradiction
      · next h =>
        rw [Option.some.inj h] at htext
        contradiction
      · next h =>
        simp only [← Option.some.inj h, htext]

/-! ## The first fault -/

/-- What is wrong with a new map: something about its fields, or about the first child that is
refused. -/
private theorem Node.ofDatumIn_map_eq_error_iff {inside : List Nat} {label : Option Nat}
    (hnew : Datum.isInside inside label = false) :
    Node.ofDatumIn inside (.map label fields) = .error fault ↔
      FieldsRefused fields fault ∨
        ∃ name vs values before n after, HasName fields name ∧ HasItems "values" fields vs ∧
          List.Forall₂ Value.Describes vs values ∧
          HasItems "nodes" fields (before ++ n :: after) ∧
          (∀ m ∈ before, ∃ tree, DescribesIn (label.toList ++ inside) m tree) ∧
          Node.ofDatumIn (label.toList ++ inside) n = .error fault := by
  rw [Node.ofDatumIn_map hnew]
  simp only [Except.bind_eq_error_iff, Except.bind_eq_ok_iff, reduceCtorEq, and_false, exists_false,
    or_false, nameOf_eq_error_iff, nameOf_eq_ok_iff, itemsOf_eq_error_iff, itemsOf_eq_ok_iff,
    List.mapM_eq_error_iff, mapM_ofDatum_eq_ok_iff, Value.ofDatum_eq_error_iff,
    Value.ofDatum_eq_ok_iff, Node.ofDatumIn_eq_ok_iff]
  -- Five steps can fail, one after the other: the name, the list of values, a value, the list of
  -- children and a child.
  constructor
  · rintro (hname | ⟨name, hname, (hvs | ⟨vs, hvs, before, v, after, rfl, hbefore, hv⟩) |
      ⟨values, ⟨vs, hvs, hvalues⟩, hns | ⟨ns, hns, before, n, after, rfl, hbefore, hn⟩⟩⟩)
    · exact .inl (.name hname)
    · exact .inl (.noValues hname hvs)
    · exact .inl (.value hname hvs hbefore hv)
    · exact .inl (.noNodes hname hvs hvalues hns)
    · exact .inr ⟨name, vs, values, before, n, after, hname, hvs, hvalues, hns, hbefore, hn⟩
  · rintro (h | ⟨name, vs, values, before, n, after, hname, hvs, hvalues, hns, hbefore, hn⟩)
    · cases h with
      | name hname => exact .inl hname
      | noValues hname hvs => exact .inr ⟨_, hname, .inl (.inl hvs)⟩
      | value hname hvs hbefore hv =>
        exact .inr ⟨_, hname, .inl (.inr ⟨_, hvs, _, _, _, rfl, hbefore, hv⟩)⟩
      | noNodes hname hvs hvalues hns =>
        exact .inr ⟨_, hname, .inr ⟨_, ⟨_, hvs, hvalues⟩, .inl hns⟩⟩
    · exact .inr ⟨_, hname, .inr ⟨_, ⟨_, hvs, hvalues⟩, .inr ⟨_, hns, _, _, _, rfl, hbefore, hn⟩⟩⟩

/-- Loading fails as the first place does that it reaches and that is refused, whatever it is inside
of. -/
private theorem Node.ofDatumIn_eq_error_iff {d : Datum} : ∀ {inside : List Nat},
    Node.ofDatumIn inside d = .error fault ↔
      ∃ inside' place, ReachesFrom inside d inside' place ∧ NodeRefused inside' place fault := by
  induction d using datum_induction with
  | h d ih =>
  intro inside
  by_cases hmap : ∃ label fields, d = .map label fields
  · obtain ⟨label, fields, rfl⟩ := hmap
    cases hnew : Datum.isInside inside label with
    | true =>
      -- A map that it is inside of is refused at once, and nothing in it is reached.
      rw [Node.ofDatumIn_again hnew, Except.error.injEq]
      constructor
      · rintro rfl
        exact ⟨_, _, .here, .again hnew⟩
      · rintro ⟨inside', place, hplace, h⟩
        cases hplace with
        | child hnew' => exact nomatch hnew'.symm.trans hnew
        | here =>
          cases h with
          | notMap hd => exact absurd rfl (hd label fields)
          | again => rfl
          | fields hnew' => exact nomatch hnew'.symm.trans hnew
    | false =>
      -- In another map, either its own fields are refused or the first child that is.
      rw [Node.ofDatumIn_map_eq_error_iff hnew]
      constructor
      · rintro (h | ⟨name, vs, values, before, n, after, hname, hvs, hvalues, hns, hbefore, hn⟩)
        · exact ⟨_, _, .here, .fields hnew h⟩
        · obtain ⟨inside', place, hplace, h⟩ := (ih label fields _ rfl hns n (by simp)).mp hn
          exact ⟨inside', place, .child hnew hname hvs hvalues hns hbefore hplace, h⟩
      · rintro ⟨inside', place, hplace, h⟩
        cases hplace with
        | here =>
          cases h with
          | notMap hd => exact absurd rfl (hd label fields)
          | again hagain => exact nomatch hagain.symm.trans hnew
          | fields _ h => exact .inl h
        | child _ hname hvs hvalues hns hbefore hplace =>
          have hn := (ih label fields _ rfl hns _ (by simp)).mpr ⟨inside', place, hplace, h⟩
          exact .inr ⟨_, _, _, _, _, _, hname, hvs, hvalues, hns, hbefore, hn⟩
  · -- What is no map has no children, and is refused for this.
    simp only [not_exists] at hmap
    have hrefused : Node.ofDatumIn inside d = .error (.notNode d.kind) := by
      cases d with
      | scalar | list | set | pairs => rfl
      | map label fields => exact absurd rfl (hmap label fields)
    rw [hrefused, Except.error.injEq]
    constructor
    · rintro rfl
      exact ⟨inside, d, .here, .notMap hmap⟩
    · rintro ⟨inside', place, hplace, h⟩
      cases hplace with
      | child => exact absurd rfl (hmap _ _)
      | here =>
        cases h with
        | notMap => rfl
        | again | fields => exact absurd rfl (hmap _ _)

/-- Loading fails as the first place does that it reaches and that is refused. -/
theorem Node.ofDatum_eq_error_iff {d : Datum} :
    Node.ofDatum d = .error fault ↔
      ∃ inside place, Reaches d inside place ∧ NodeRefused inside place fault :=
  Node.ofDatumIn_eq_error_iff

/-- Data is taken if it describes a tree, and this tree is then the result: its name, a value for
each item in order with the text of the item's data, and a child for each item in order. Otherwise
the fault is that of the first place that is refused. Whether data describes a tree is a matter of
its shape alone if all its integers can be written, as they can in the data of any JSON text. The
data of a tree describes this tree. -/
theorem ofDatum_takes_descriptions (d : Datum) :
    (d.Writable → ((∃ tree, Node.ofDatum d = .ok tree) ↔ IsTree d)) ∧
    (∀ text j, Json.read text = .ok j → j.toDatum.Writable) ∧
    (∀ tree, Node.ofDatum d = .ok tree ↔ Describes d tree) ∧
    (∀ fault, Node.ofDatum d = .error fault ↔
      ∃ inside place, Reaches d inside place ∧ NodeRefused inside place fault) ∧
    ∀ tree : Node, Node.ofDatum tree.toJson.toDatum = .ok tree := by
  refine ⟨fun h => ?_, fun text j => Json.writable_of_read, fun tree => Node.ofDatum_eq_ok_iff,
    fun fault => Node.ofDatum_eq_error_iff, Node.ofDatum_toDatum_toJson⟩
  simp only [Node.ofDatum_eq_ok_iff]
  exact exists_describes_iff h

/-- Names that are missing and texts of data that is no text are taken, and so is a falsehood where
a list should stand. -/
theorem ofDatum_takes_descriptions_false_for_list :
    let j : Json :=
      .object [("nodes", .bool false), ("values", .array [.object [("value", .bool true)]])]
    Json.read (Json.render j) = .ok j ∧ j.toDatum.Writable ∧ IsTree j.toDatum ∧
      (∃ tree, Node.ofDatum j.toDatum = .ok tree) ∧
      Node.ofDatum j.toDatum = .ok ⟨none, [⟨none, "True"⟩], []⟩ := by
  intro j
  have hread : Json.read (Json.render j) = .ok j := by
    refine Json.read_render ⟨by simp, trivial, ⟨⟨by simp, trivial, trivial⟩, trivial⟩, trivial⟩
  obtain ⟨hshape, hwritable, htree, -⟩ := ofDatum_takes_descriptions j.toDatum
  have hj := hwritable _ _ hread
  have hvalues : HasItems "values" (Json.fieldsToDatum [("nodes", .bool false),
      ("values", .array [.object [("value", .bool true)]])])
      [(Json.object [("value", .bool true)]).toDatum] := .list rfl
  have his : IsTree j.toDatum :=
    .map rfl (.absent rfl) hvalues (by simpa using .map (.absent rfl)) (.nothing rfl rfl) (by simp)
  refine ⟨hread, hj, his, (hshape hj).mpr his, (htree _).mpr ?_⟩
  exact .map rfl (.absent rfl) hvalues (.cons (.map (.absent rfl) (.data rfl nofun rfl)) .nil)
    (.nothing rfl rfl) rfl (by simp)

/-! ## Data that contains itself -/

/-- The items in a map that does not contain itself do not contain it or themselves. -/
private theorem apart_of_hasItems {inside : List Nat} {label : Option Nat} {key : String}
    {items : List Datum} (h : (Datum.map label fields).Apart inside)
    (hitems : HasItems key fields items) : ∀ d ∈ items, d.Apart (label.toList ++ inside) := by
  cases hitems with
  | absent | nothing => simp
  | list hfield => exact fun d hd => h.item key hfield hd

/-- All that loading gets to in data that does not contain itself does not contain itself either. -/
private theorem ReachesFrom.apart {inside inside' : List Nat} {d place : Datum}
    (h : ReachesFrom inside d inside' place) (hd : d.Apart inside) : place.Apart inside' := by
  induction h with
  | here => exact hd
  | child _ _ _ _ hns _ _ ih => exact ih (apart_of_hasItems hd hns _ (by simp))

/-- What is wrong with fields is found. -/
private theorem FieldsRefused.ne_endless (h : FieldsRefused fields fault) : fault ≠ .endless := by
  rintro rfl
  cases h with
  | name hname => cases hname
  | noValues _ hvs => cases hvs
  | value _ _ _ hv =>
    cases hv with
    | name hname => cases hname
  | noNodes _ _ _ hns => cases hns

/-- Loading data that does not contain itself comes to an end. -/
private theorem Node.ofDatumIn_ne_endless {inside : List Nat} {d : Datum} (hd : d.Apart inside) :
    Node.ofDatumIn inside d ≠ .error .endless := by
  intro h
  obtain ⟨inside', place, hplace, h⟩ := Node.ofDatumIn_eq_error_iff.mp h
  have hapart := hplace.apart hd
  cases h with
  | again hagain =>
    cases hapart with
    | map hnew => exact nomatch hnew.symm.trans hagain
  | fields _ h => exact h.ne_endless rfl

/-! ## Faults of another sort -/

/-- The faults of data that is malformed as a tree. -/
def LoadFault.IsMalformed : LoadFault → Prop
  | .notNode _ | .notValue _ | .nodeName .. | .valueName .. => True
  | .notList _ | .tooLong _ | .endless => False

/-- A scalar that has nothing to go through stands where a list should, in a map that is none of
those with the labels in `inside`, and what is in front of it is all right. -/
inductive ScalarForList (inside : List Nat) : Datum → Scalar → Prop
  | values {label : Option Nat} {fields : List (Scalar × Datum)} {name : Option String}
      {s : Scalar} (hnew : Datum.isInside inside label = false) (hname : HasName fields name)
      (hs : HasScalar "values" fields s) : ScalarForList inside (.map label fields) s
  | nodes {label : Option Nat} {fields : List (Scalar × Datum)} {name : Option String}
      {vs : List Datum} {values : List Value} {s : Scalar}
      (hnew : Datum.isInside inside label = false) (hname : HasName fields name)
      (hvs : HasItems "values" fields vs) (hvalues : List.Forall₂ Value.Describes vs values)
      (hs : HasScalar "nodes" fields s) : ScalarForList inside (.map label fields) s

/-- Such a scalar is refused as something that is no list. -/
private theorem NodeRefused.of_scalarForList {inside : List Nat} {place : Datum} {s : Scalar}
    (h : ScalarForList inside place s) : NodeRefused inside place (.notList s.kind) := by
  cases h with
  | values hnew hname hs => exact .fields hnew (.noValues hname (.scalar hs))
  | nodes hnew hname hvs hvalues hs => exact .fields hnew (.noNodes hname hvs hvalues (.scalar hs))

/-- A name that can be written is refused as a matter of form. -/
private theorem NameRefused.isMalformed {refuse : Kind → String → LoadFault}
    (hrefuse : ∀ kind shown, (refuse kind shown).IsMalformed) (hfields : FieldsWritable fields)
    (h : NameRefused refuse fields fault) : fault.IsMalformed := by
  cases h with
  | noText => exact hrefuse _ _
  | tooLong hd hnull htext hshown =>
    obtain ⟨shown, hshown'⟩ := Datum.exists_shown (writable_of_field? hfields hd)
    exact nomatch hshown.symm.trans hshown'

/-- What is wrong with something in place of a list is a matter of form, unless it is a scalar with
nothing to go through. -/
private theorem ItemsRefused.isMalformed_or {refuse : Kind → LoadFault} {key : String}
    (hrefuse : ∀ kind, (refuse kind).IsMalformed) (h : ItemsRefused refuse key fields fault) :
    fault.IsMalformed ∨ ∃ s, HasScalar key fields s := by
  cases h with
  | text | bytes | map | set | pairs => exact .inl (hrefuse _)
  | scalar hs => exact .inr ⟨_, hs⟩

/-- A value that can be written is refused as a matter of form. -/
private theorem ValueRefused.isMalformed {d : Datum} (hd : d.Writable) (h : ValueRefused d fault) :
    fault.IsMalformed := by
  cases h with
  | notMap => trivial
  | name hname => exact hname.isMalformed (by intros; trivial) hd
  | text hname hfield htext =>
    obtain ⟨text, htext'⟩ := Datum.exists_text (writable_of_field? hd hfield)
    exact nomatch htext.symm.trans htext'

/-- What is wrong with a node is a matter of form, unless it is inside itself or a scalar stands for
a list in it. -/
private theorem NodeRefused.isMalformed_or {inside : List Nat} {place : Datum}
    (hplace : place.Writable) (h : NodeRefused inside place fault) :
    fault.IsMalformed ∨ fault = .endless ∨ ∃ s, ScalarForList inside place s := by
  cases h with
  | notMap => exact .inl trivial
  | again => exact .inr (.inl rfl)
  | fields hnew h =>
    cases h with
    | name hname => exact .inl (hname.isMalformed (by intros; trivial) hplace)
    | noValues hname hvs =>
      exact (hvs.isMalformed_or (by intro; trivial)).imp_right fun ⟨s, hs⟩ =>
        .inr ⟨s, .values hnew hname hs⟩
    | value hname hvs hbefore hv =>
      exact .inl (hv.isMalformed (writable_of_hasItems hplace hvs _ (by simp)))
    | noNodes hname hvs hvalues hns =>
      exact (hns.isMalformed_or (by intro; trivial)).imp_right fun ⟨s, hs⟩ =>
        .inr ⟨s, .nodes hnew hname hvs hvalues hs⟩

/-- All that loading gets to can be written if the data can. -/
private theorem ReachesFrom.writable {inside inside' : List Nat} {d place : Datum}
    (h : ReachesFrom inside d inside' place) (hd : d.Writable) : place.Writable := by
  induction h with
  | here => exact hd
  | child _ _ _ _ hns _ _ ih => exact ih (writable_of_hasItems hd hns _ (by simp))

/-- Loading fails for a scalar that stands for a list at the place that it reaches. -/
private theorem Node.ofDatum_of_scalarForList {d place : Datum} {inside : List Nat} {s : Scalar}
    (hplace : Reaches d inside place) (hs : ScalarForList inside place s) :
    Node.ofDatum d = .error (.notList s.kind) :=
  Node.ofDatum_eq_error_iff.mpr ⟨inside, place, hplace, .of_scalarForList hs⟩

/-- If all integers can be written and loading comes to an end, as it does with the data of any JSON
text, what is wrong with data that is no tree is that it is malformed, unless the first fault is
that a scalar stands where a list should, and it is neither a text nor bytes nor nothing. Then the
fault is of another sort. Of these two the command line only explains the first. -/
theorem ofDatum_malformed_unless_scalar_for_list (d : Datum) :
    (d.Writable → ∀ fault, Node.ofDatum d = .error fault →
      (fault.IsMalformed ↔ fault ≠ .endless ∧
        ¬∃ inside place s, Reaches d inside place ∧ ScalarForList inside place s)) ∧
    (∀ inside place s, Reaches d inside place → ScalarForList inside place s →
      Node.ofDatum d = .error (.notList s.kind)) ∧
    (∀ text j, Json.read text = .ok j →
      j.toDatum.Writable ∧ Node.ofDatum j.toDatum ≠ .error .endless) ∧
    ∀ path fault, (CommandLine.RunFault.text path (.load fault)).explanation? ≠ none ↔
      fault.IsMalformed := by
  refine ⟨fun hd fault hfault => ⟨fun hmalformed => ⟨?_, ?_⟩, fun ⟨hends, hnone⟩ => ?_⟩,
    fun inside place s => Node.ofDatum_of_scalarForList,
    fun text j hread =>
      ⟨Json.writable_of_read hread, Node.ofDatumIn_ne_endless (apart_toDatum [] j)⟩,
    fun path fault => ?_⟩
  · rintro rfl
    exact hmalformed
  · rintro ⟨inside, place, s, hplace, hs⟩
    rw [Node.ofDatum_of_scalarForList hplace hs, Except.error.injEq] at hfault
    subst hfault
    exact hmalformed
  · -- The place where loading fails is reached, so its integers can be written too, and only three
    -- sorts of faults are left.
    obtain ⟨inside, place, hplace, h⟩ := Node.ofDatum_eq_error_iff.mp hfault
    obtain hmalformed | hendless | ⟨s, hs⟩ := h.isMalformed_or (hplace.writable hd)
    · exact hmalformed
    · exact absurd hendless hends
    · exact absurd ⟨inside, place, s, hplace, hs⟩ hnone
  · cases fault <;> simp [CommandLine.RunFault.explanation?, LoadFault.IsMalformed]

/-- A truth for the children of a child is met behind a child that is all right. A text in its place
is gone through, and is malformed. -/
theorem ofDatum_malformed_unless_scalar_for_list_in_child :
    let truth : Json := .object [("nodes", .array [.object [], .object [("nodes", .bool true)]])]
    let text : Json := .object [("nodes", .array [.object [], .object [("nodes", .string "A")]])]
    Json.read (Json.render text) = .ok text ∧ text.toDatum.Writable ∧
      Node.ofDatum truth.toDatum = .error (.notList .bool) ∧
      Node.ofDatum text.toDatum = .error (.notNode .text) ∧
      ¬∃ inside place s, Reaches text.toDatum inside place ∧ ScalarForList inside place s := by
  intro truth text
  obtain ⟨-, hscalar, -⟩ := ofDatum_malformed_unless_scalar_for_list truth.toDatum
  obtain ⟨hmalformed, -, hwritable, -⟩ := ofDatum_malformed_unless_scalar_for_list text.toDatum
  have hread : Json.read (Json.render text) = .ok text := by
    refine Json.read_render ⟨by simp, ⟨⟨by simp, trivial⟩, ⟨by simp, trivial, trivial⟩, trivial⟩,
      trivial⟩
  have htext := (hwritable _ _ hread).1
  have hfault : Node.ofDatum text.toDatum = .error (.notNode .text) := rfl
  refine ⟨hread, htext, ?_, hfault, ((hmalformed htext _ hfault).mp trivial).2⟩
  have hchildren : HasItems "nodes" (Json.fieldsToDatum
      [("nodes", .array [.object [], .object [("nodes", .bool true)]])])
      ([(Json.object []).toDatum] ++ (Json.object [("nodes", .bool true)]).toDatum :: []) :=
    .list rfl
  have hfirst : ∀ m ∈ [(Json.object []).toDatum], ∃ tree, DescribesIn [] m tree := by
    simpa using ⟨⟨none, [], []⟩,
      .map rfl (.absent rfl) (.absent rfl) .nil (.absent rfl) rfl (by simp)⟩
  have hreached : Reaches truth.toDatum [] (Json.object [("nodes", .bool true)]).toDatum :=
    .child rfl (.absent rfl) (.absent rfl) .nil hchildren hfirst .here
  exact hscalar _ _ _ hreached
    (.nodes rfl (.absent rfl) (.absent rfl) .nil ⟨rfl, rfl, nofun, nofun⟩)

/-- A number in place of the values is a fault of the other sort, which nobody explains. -/
theorem ofDatum_number_for_list :
    let d := (Json.object [("values", .int 5)]).toDatum
    Node.ofDatum d = .error (.notList .int) ∧ ¬(LoadFault.notList .int).IsMalformed ∧
      (LoadFault.notList .int).message = "'int' object is not iterable" :=
  ⟨rfl, id, rfl⟩

end VersionGate.Config

import VersionGate.Config.Loading
import VersionGate.Proofs.Data.Labels
import VersionGate.Proofs.Json.RoundTrip

/-!
# Trees as data and back

A tree is made into data with the fields that loading looks for, and loading them gives the tree
again, whatever labels the data has if it does not contain itself. The data is symbolic, so its JSON
text holds all of it.

## Key results

- `ofDatum_of_unlabelled`: loading the data of a tree gives the tree, apart from labels
- `ofDatum_toDatum_toJson`: the same where there are no labels
- `symbolic_toJson`: the data of a tree has no numbers, and no key comes twice
-/

namespace VersionGate.Config

open Data

/-! ## The data of a tree -/

/-- A missing name is nothing, any other one a text. -/
private theorem toDatum_jsonOfName (name : Option String) :
    (jsonOfName name).toDatum = .scalar ((name.map Scalar.text).getD .null) := by
  cases name <;> rfl

/-- A name is found in fields that start with it. -/
private theorem nameOf_cons (refuse : Kind → String → LoadFault) {name : Option String} {d : Datum}
    (h : d.unlabelled = (jsonOfName name).toDatum) (fields : List (Scalar × Datum)) :
    nameOf refuse ((.text "name", d) :: fields) = .ok name := by
  rw [toDatum_jsonOfName] at h
  rw [of_unlabelled_scalar h]
  cases name <;> simp [nameOf, Datum.field?]

/-- Loading the data of a value gives the value, apart from labels. -/
private theorem Value.ofDatum_of_unlabelled (v : Value) {d : Datum}
    (h : d.unlabelled = v.toJson.toDatum) : Value.ofDatum d = .ok v := by
  obtain ⟨label, fields, rfl, hfields⟩ := of_unlabelled_map h
  obtain ⟨name, others, rfl, hname, hothers⟩ := of_unlabelledFields_cons hfields
  obtain ⟨text, more, rfl, htext, -⟩ := of_unlabelledFields_cons hothers
  obtain rfl := of_unlabelled_scalar htext
  simp only [Value.ofDatum, nameOf_cons _ hname]
  rfl

/-- Loading the data of values gives the values, apart from labels. -/
private theorem mapM_ofDatum_values : ∀ (values : List Value) {ds : List Datum},
    unlabelledItems ds = Json.itemsToDatum (values.map Value.toJson) →
      ds.mapM Value.ofDatum = .ok values
  | [], ds, h => by
    rw [of_unlabelledItems_nil h]
    rfl
  | v :: values, ds, h => by
    obtain ⟨d, ds, rfl, hv, hvalues⟩ := of_unlabelledItems_cons h
    simp only [List.mapM_cons, v.ofDatum_of_unlabelled hv, mapM_ofDatum_values values hvalues]
    rfl

section Fields

variable (name items : Datum) (label : Option Nat) (items' : List Datum)
  (rest : List (Scalar × Datum))

/-- The values are loaded from the second field. -/
private theorem valuesOf_values :
    valuesOf ((.text "name", name) :: (.text "values", .list label items') :: rest) =
      items'.mapM Value.ofDatum := rfl

/-- The children are loaded from the third field. -/
private theorem nodesOf_nodes (inside : List Nat) :
    nodesOf inside ((.text "name", name) :: (.text "values", items)
      :: (.text "nodes", .list label items') :: rest) = nodesOfItems inside items' := rfl

end Fields

mutual

/-- Loading the data of a tree gives the tree, whatever labels there are, if none of them comes
twice on the way. -/
private theorem Node.ofDatumIn_of_unlabelled : ∀ (n : Node) {d : Datum} {inside : List Nat},
    d.unlabelled = n.toJson.toDatum → d.Apart inside → Node.ofDatumIn inside d = .ok n
  | ⟨name, values, nodes⟩, d, inside, h, hapart => by
    obtain ⟨label, fields, rfl, hfields⟩ := of_unlabelled_map h
    obtain ⟨first, others, rfl, hname, hothers⟩ := of_unlabelledFields_cons hfields
    obtain ⟨second, more, rfl, hsecond, hmore⟩ := of_unlabelledFields_cons hothers
    obtain ⟨third, last, rfl, hthird, -⟩ := of_unlabelledFields_cons hmore
    obtain ⟨label', items, rfl, hvalues⟩ := of_unlabelled_list hsecond
    obtain ⟨label'', items', rfl, hnodes⟩ := of_unlabelled_list hthird
    obtain ⟨hlabel, hchildren⟩ : Datum.isInside inside label = false ∧
        ∀ d ∈ items', d.Apart (label.toList ++ inside) := by
      refine ⟨?_, fun d hd => hapart.item "nodes" rfl hd⟩
      cases hapart with
      | map hlabel => exact hlabel
    simp only [Node.ofDatumIn, hlabel, Bool.false_eq_true, if_false, nameOf_cons _ hname,
      valuesOf_values, nodesOf_nodes, mapM_ofDatum_values values hvalues,
      nodesOfItems_of_unlabelled nodes hnodes hchildren, bind, Except.bind]

/-- Loading the data of trees gives the trees. -/
private theorem nodesOfItems_of_unlabelled : ∀ (nodes : List Node) {ds : List Datum}
    {inside : List Nat}, unlabelledItems ds = Json.itemsToDatum (nodesToJson nodes) →
      (∀ d ∈ ds, d.Apart inside) → nodesOfItems inside ds = .ok nodes
  | [], ds, inside, h, hapart => by
    rw [of_unlabelledItems_nil h]
    rfl
  | n :: ns, ds, inside, h, hapart => by
    obtain ⟨d, ds, rfl, hn, hns⟩ := of_unlabelledItems_cons h
    obtain ⟨hd, hds⟩ := List.forall_mem_cons.mp hapart
    simp only [nodesOfItems, n.ofDatumIn_of_unlabelled hn hd, nodesOfItems_of_unlabelled ns hns hds]
    rfl

end

/-- Loading the data of a tree gives the tree, if the data does not contain itself. -/
theorem Node.ofDatum_of_unlabelled (n : Node) {d : Datum} (h : d.unlabelled = n.toJson.toDatum)
    (hapart : d.Apart []) : Node.ofDatum d = .ok n := n.ofDatumIn_of_unlabelled h hapart

/-- Loading the data of a tree gives the tree. -/
theorem Node.ofDatum_toDatum_toJson (n : Node) : Node.ofDatum n.toJson.toDatum = .ok n :=
  n.ofDatum_of_unlabelled (unlabelled_toDatum n.toJson) (apart_toDatum [] n.toJson)

/-! ## Symbolic data -/

/-- A name is no number. -/
private theorem symbolic_jsonOfName (name : Option String) : (jsonOfName name).Symbolic := by
  cases name <;> trivial

/-- The data of a value has no numbers, and no key comes twice. -/
private theorem Value.symbolic_toJson (v : Value) : v.toJson.Symbolic :=
  ⟨by simp, symbolic_jsonOfName v.name, trivial, trivial⟩

/-- Neither has that of values. -/
private theorem itemsSymbolic_values (values : List Value) :
    Json.ItemsSymbolic (values.map Value.toJson) := by
  induction values with
  | nil => trivial
  | cons v values ih => exact ⟨v.symbolic_toJson, ih⟩

mutual

/-- The data of a tree has no numbers, and no key comes twice. -/
theorem Node.symbolic_toJson : ∀ n : Node, n.toJson.Symbolic
  | ⟨name, values, nodes⟩ =>
    ⟨by simp, symbolic_jsonOfName name, itemsSymbolic_values values,
      itemsSymbolic_nodesToJson nodes, trivial⟩

/-- Neither has that of trees. -/
private theorem itemsSymbolic_nodesToJson :
    ∀ nodes : List Node, Json.ItemsSymbolic (nodesToJson nodes)
  | [] => trivial
  | n :: ns => ⟨n.symbolic_toJson, itemsSymbolic_nodesToJson ns⟩

end

end VersionGate.Config

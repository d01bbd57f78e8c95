import VersionGate.Config.Loading
import VersionGate.Proofs.Yaml.Structure

/-!
# What comes back of a tree

The texts of a tree come back one by one, each as the indentation of its line says. Names that are
missing, empty lists, the order of values and children and the nesting are not touched.

## Key results

- `backNode`: what comes back of a node
- `survivesText_of_near`: a text that comes back as it was
- `backNode_eq_self_iff`: a tree of characters comes back exactly if all its texts survive
- `spellsMap_nodeFields`: the tokens of a written node spell the data of what comes back
-/

namespace VersionGate.Config

/-- Changes the name and the text of a value. -/
def Value.mapTexts (f : String → String) (v : Value) : Value := ⟨v.name.map f, f v.text⟩

mutual

/-- Changes all names and texts of a tree. -/
def Node.mapTexts (f : String → String) : Node → Node
  | ⟨name, values, nodes⟩ =>
    ⟨name.map f, values.map (Value.mapTexts f), mapTextsOfNodes f nodes⟩

/-- Changes all names and texts of some trees. -/
def mapTextsOfNodes (f : String → String) : List Node → List Node
  | [] => []
  | n :: ns => n.mapTexts f :: mapTextsOfNodes f ns

end

end VersionGate.Config

namespace VersionGate.Yaml

open Config Scanner

/-! ## What comes back -/

/-- What comes back of a text in a field, the line of which starts with `indent` blanks. -/
def backText (indent : Nat) (s : String) : String :=
  String.ofList (Scalar.back (indent + 2) s.toList)

/-- What comes back of a value. -/
def backValue (indent : Nat) (v : Value) : Value :=
  ⟨v.name.map (backText indent), backText indent v.text⟩

mutual

/-- What comes back of a node. -/
def backNode (indent : Nat) : Config.Node → Config.Node
  | ⟨name, values, nodes⟩ =>
    ⟨name.map (backText indent), values.map (backValue (indent + 2)), backNodes (indent + 2) nodes⟩

/-- What comes back of nodes. -/
def backNodes (indent : Nat) : List Config.Node → List Config.Node
  | [] => []
  | n :: ns => backNode indent n :: backNodes indent ns

end

/-- Whether a text in a field comes back as it was. -/
def SurvivesText (indent : Nat) (s : String) : Prop := Scalar.Survives (indent + 2) s.toList

/-- Whether the texts of a value satisfy `p`, with the blanks that their lines start with. -/
def AllOfValue (p : Nat → String → Prop) (indent : Nat) (v : Value) : Prop :=
  (∀ s ∈ v.name, p indent s) ∧ p indent v.text

mutual

/-- Whether the texts of a node satisfy `p`, with the blanks that their lines start with. -/
def AllOfNode (p : Nat → String → Prop) (indent : Nat) : Config.Node → Prop
  | ⟨name, values, nodes⟩ =>
    (∀ s ∈ name, p indent s) ∧ (∀ v ∈ values, AllOfValue p (indent + 2) v) ∧
      AllOfNodes p (indent + 2) nodes

/-- Whether the texts of nodes satisfy `p`. -/
def AllOfNodes (p : Nat → String → Prop) (indent : Nat) : List Config.Node → Prop
  | [] => True
  | n :: ns => AllOfNode p indent n ∧ AllOfNodes p indent ns

end

/-- What all texts of a value satisfy can be weakened. -/
theorem AllOfValue.imp {p q : Nat → String → Prop} (himp : ∀ indent s, p indent s → q indent s)
    {indent : Nat} {v : Value} (h : AllOfValue p indent v) : AllOfValue q indent v :=
  ⟨fun s hs => himp indent s (h.1 s hs), himp indent _ h.2⟩

mutual

/-- What all texts of a node satisfy can be weakened. -/
theorem AllOfNode.imp {p q : Nat → String → Prop} (himp : ∀ indent s, p indent s → q indent s) :
    ∀ {n : Config.Node} {indent : Nat}, AllOfNode p indent n → AllOfNode q indent n
  | ⟨_, _, _⟩, indent, ⟨hname, hvalues, hnodes⟩ =>
    ⟨fun s hs => himp indent s (hname s hs), fun v hv => (hvalues v hv).imp himp,
      AllOfNodes.imp himp hnodes⟩

/-- So can what all texts of several nodes satisfy. -/
theorem AllOfNodes.imp {p q : Nat → String → Prop} (himp : ∀ indent s, p indent s → q indent s) :
    ∀ {nodes : List Config.Node} {indent : Nat},
      AllOfNodes p indent nodes → AllOfNodes q indent nodes
  | [], _, _ => trivial
  | _ :: _, _, ⟨hn, hns⟩ => ⟨AllOfNode.imp himp hn, AllOfNodes.imp himp hns⟩

end

/-- A text comes back if it is without the next-line character and its lines are not too far in. -/
theorem survivesText_of_near {indent : Nat} {s : String} (hindent : indent + 2 < lineWidth)
    (hs : Scalar.nextLine ∉ s.toList) : SurvivesText indent s := by
  unfold SurvivesText Scalar.Survives
  cases Scalar.style s.toList with
  | plain => trivial
  | singleQuoted => exact hs
  | doubleQuoted => exact fun hfar => absurd hfar (Nat.not_le.mpr hindent)

/-- A text comes back as it is exactly if it survives. -/
private theorem backText_eq_self_iff (indent : Nat) (s : String) :
    backText indent (Text.spelled s) = Text.spelled s ↔ SurvivesText indent (Text.spelled s) := by
  have hspelled : (Text.spelled s).toList = Text.spell s.toList := by simp [Text.spelled]
  unfold backText SurvivesText
  rw [hspelled, ← Scalar.back_eq_self_iff, Text.spelled]
  exact String.ofList_inj

/-- So does a name. -/
private theorem backName_eq_self_iff (indent : Nat) (name : Option String) :
    (name.map Text.spelled).map (backText indent) = name.map Text.spelled ↔
      ∀ s ∈ name.map Text.spelled, SurvivesText indent s := by
  cases name with
  | none => simp
  | some name => simpa using backText_eq_self_iff indent name

/-- So does a value. -/
private theorem backValue_eq_self_iff (indent : Nat) (v : Value) :
    backValue indent (v.mapTexts Text.spelled) = v.mapTexts Text.spelled ↔
      AllOfValue SurvivesText indent (v.mapTexts Text.spelled) := by
  simp only [Value.mapTexts, backValue, AllOfValue, Value.mk.injEq, backName_eq_self_iff,
    backText_eq_self_iff]

/-- So do the values of a node. -/
private theorem backValues_eq_self_iff (indent : Nat) (values : List Value) :
    (values.map (Value.mapTexts Text.spelled)).map (backValue indent) =
        values.map (Value.mapTexts Text.spelled) ↔
      ∀ v ∈ values.map (Value.mapTexts Text.spelled), AllOfValue SurvivesText indent v := by
  induction values with
  | nil => simp
  | cons v values ih =>
    rw [List.map_cons, List.map_cons, List.cons.injEq, ih, backValue_eq_self_iff,
      List.forall_mem_cons]

mutual

/-- A tree of characters comes back exactly if all its texts survive. -/
theorem backNode_eq_self_iff (indent : Nat) : ∀ n : Config.Node,
    backNode indent (n.mapTexts Text.spelled) = n.mapTexts Text.spelled ↔
      AllOfNode SurvivesText indent (n.mapTexts Text.spelled)
  | ⟨name, values, nodes⟩ => by
    have hnodes := backNodes_eq_self_iff (indent + 2) nodes
    simp only [Config.Node.mapTexts, backNode, AllOfNode, Config.Node.mk.injEq,
      backName_eq_self_iff, backValues_eq_self_iff, hnodes]

/-- So do the children of a node. -/
private theorem backNodes_eq_self_iff (indent : Nat) : ∀ nodes : List Config.Node,
    backNodes indent (mapTextsOfNodes Text.spelled nodes) = mapTextsOfNodes Text.spelled nodes ↔
      AllOfNodes SurvivesText indent (mapTextsOfNodes Text.spelled nodes)
  | [] => by simp [mapTextsOfNodes, backNodes, AllOfNodes]
  | n :: ns => by
    simp only [mapTextsOfNodes, backNodes, AllOfNodes, List.cons.injEq,
      backNode_eq_self_iff indent n, backNodes_eq_self_iff indent ns]

end

/-! ## The tokens of what comes back -/

/-- The token of a text spells what comes back of it. -/
private theorem spellsValue_textToken (indent : Nat) (s : String) :
    SpellsValue [textToken (indent + 2) s.toList] (.string (backText indent s)) := by
  unfold textToken backText
  cases hstyle : Scalar.style s.toList with
  | plain =>
    have hback : Scalar.back (indent + 2) s.toList = s.toList := by rw [Scalar.back, hstyle]
    refine .plain ?_
    rw [hback, String.toList_ofList]
    exact Scalar.resolve_of_style_plain hstyle
  | singleQuoted => exact .quoted _
  | doubleQuoted => exact .quoted _

/-- The tokens of a name spell its field. -/
private theorem spellsFields_name (indent : Nat) (name : Option String) {tokens : List Token}
    {fields : List (String × Json)} (h : SpellsFields tokens fields) :
    SpellsFields (nameTokens indent name ++ tokens)
      (("name", jsonOfName (name.map (backText indent))) :: fields) := by
  refine .cons (by decide +kernel) ?_ h
  cases name with
  | none => exact .null
  | some name => exact spellsValue_textToken indent name

/-- Whether tokens are the fields of a map of data. -/
def SpellsMap (tokens : List Token) (j : Json) : Prop :=
  ∃ fields, j = .object fields ∧ SpellsFields tokens fields

/-- The tokens of a value spell it. -/
private theorem spellsMap_valueFields (indent : Nat) (v : Value) :
    SpellsMap (valueFields indent v) (backValue indent v).toJson := by
  refine ⟨_, rfl, spellsFields_name indent v.name ?_⟩
  have hvalue : SpellsFields (fieldTokens "value" [textToken (indent + 2) v.text.toList] ++ [])
      [("value", .string (backText indent v.text))] :=
    .cons (by decide +kernel) (spellsValue_textToken indent v.text) .nil
  rw [List.append_nil] at hvalue
  exact hvalue

/-- The tokens of a list spell its items. -/
private theorem spellsValue_listTokens {items : List (List Token)} {js : List Json}
    (h : List.Forall₂ SpellsMap items js) : SpellsValue (listTokens items) (.array js) := by
  have hitems : ∀ {items : List (List Token)} {js : List Json},
      List.Forall₂ SpellsMap items js →
      SpellsItems (items.flatMap fun fields => .blockEntry :: mapTokens fields) js := by
    intro items js h
    induction h with
    | nil => exact .nil
    | cons hitem h ih =>
      obtain ⟨fields, rfl, hfields⟩ := hitem
      exact .cons hfields ih
  cases h with
  | nil => exact .emptyList
  | cons hitem h => exact .list (hitems (.cons hitem h))

/-- The tokens of the values of a node spell them one by one. -/
private theorem forall₂_values (indent : Nat) (values : List Value) :
    List.Forall₂ SpellsMap
      (values.map (valueFields indent)) ((values.map (backValue indent)).map Value.toJson) := by
  rw [List.map_map, List.forall₂_map_left_iff, List.forall₂_map_right_iff, List.forall₂_same]
  intro v _
  exact spellsMap_valueFields indent v

mutual

/-- The tokens of a written node spell the data of what comes back. -/
theorem spellsMap_nodeFields (indent : Nat) : ∀ n : Config.Node,
    SpellsMap (nodeFields indent n) (backNode indent n).toJson
  | ⟨name, values, nodes⟩ => by
    have hvalues := spellsValue_listTokens (forall₂_values (indent + 2) values)
    have hnodes := spellsValue_listTokens (forall₂_nodes (indent + 2) nodes)
    refine ⟨_, by rw [backNode, Config.Node.toJson], ?_⟩
    rw [nodeFields, List.append_assoc]
    refine spellsFields_name indent name (.cons (by decide +kernel) hvalues ?_)
    rw [← List.append_nil (fieldTokens "nodes" _)]
    exact .cons (by decide +kernel) hnodes .nil

/-- The tokens of its children spell them one by one. -/
private theorem forall₂_nodes (indent : Nat) : ∀ nodes : List Config.Node,
    List.Forall₂ SpellsMap
      (nodesFields indent nodes) (nodesToJson (backNodes indent nodes))
  | [] => .nil
  | n :: ns => .cons (spellsMap_nodeFields indent n) (forall₂_nodes indent ns)

end

end VersionGate.Yaml

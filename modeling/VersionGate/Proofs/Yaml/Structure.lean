import VersionGate.Json.Basic
import VersionGate.Proofs.Yaml.TreeTokens
import VersionGate.Yaml.Structure

/-!
# The structure of a written tree

The tokens of a document say what its structure is. `SpellsFields tokens fields` says that some
tokens, those between the start and the end of a block, are the fields of a map, with texts, nothing
or lists of such maps as values. Reading them gives the map, whatever comes behind them.

## Key results

- `node_value`, `bareItems_items`, `blockFields_fields`: what reading makes of a value, of the items
  of a list and of the fields of a block
- `document_fields`: the document with the block of a map
-/

namespace VersionGate.Yaml

/-! ## Trees of symbolic data -/

mutual

/-- Data as the tree of a document. Numbers are left out. -/
def Tree.ofJson : Json → Tree
  | .null => .scalar none .null "null"
  | .bool b => .scalar none .bool (if b then "true" else "false")
  | .int _ | .float _ => .empty
  | .string s => .scalar none .text s
  | .array items => .list none .list (itemsOfJson items)
  | .object fields => .map none .map (fieldsOfJson fields)

/-- The items of a list as trees. -/
def itemsOfJson : List Json → List Tree
  | [] => []
  | j :: js => .ofJson j :: itemsOfJson js

/-- The fields of a map as trees. -/
def fieldsOfJson : List (String × Json) → List (Tree × Tree)
  | [] => []
  | (key, j) :: rest => (.scalar none .text key, .ofJson j) :: fieldsOfJson rest

end

mutual

/-- Whether tokens are the value of a field. A text without quotes has to be resolved as a text. -/
inductive SpellsValue : List Token → Json → Prop where
  | null : SpellsValue [.scalar "null" true] .null
  | quoted (s : String) : SpellsValue [.scalar s false] (.string s)
  | plain {s : String} (hs : Tag.resolve s.toList = .text) :
    SpellsValue [.scalar s true] (.string s)
  | emptyList : SpellsValue [.flowListStart, .flowListEnd] (.array [])
  | list {tokens : List Token} {j : Json} {js : List Json} (h : SpellsItems tokens (j :: js)) :
    SpellsValue tokens (.array (j :: js))

/-- Whether tokens are the items of a list of maps. -/
inductive SpellsItems : List Token → List Json → Prop where
  | nil : SpellsItems [] []
  | cons {fields rest : List Token} {js : List (String × Json)} {more : List Json}
    (h : SpellsFields fields js) (hrest : SpellsItems rest more) :
    SpellsItems (.blockEntry :: mapTokens fields ++ rest) (.object js :: more)

/-- Whether tokens are the fields of a map. -/
inductive SpellsFields : List Token → List (String × Json) → Prop where
  | nil : SpellsFields [] []
  | cons {key : String} {value rest : List Token} {j : Json} {more : List (String × Json)}
    (hkey : Tag.resolve key.toList = .text) (h : SpellsValue value j)
    (hrest : SpellsFields rest more) :
    SpellsFields (fieldTokens key value ++ rest) ((key, j) :: more)

end

namespace Structure

variable (handles : Handles)

/-! ## Single steps -/

/-- A scalar without properties. -/
private theorem node_scalar (inBlock bareList plain : Bool) (text : String) (fuel : Nat)
    (rest : List Token) :
    node handles inBlock bareList (fuel + 1) (.scalar text plain :: rest) =
      .ok (Properties.scalar {} text plain, rest) := rfl

/-- A list without a block of its own. -/
private theorem node_bareItems {fuel : Nat} {tokens rest : List Token} {items : List Tree}
    (h : bareItems handles fuel (.blockEntry :: tokens) = .ok (items, rest)) :
    node handles true true (fuel + 1) (.blockEntry :: tokens) =
      .ok (.list none .list items, rest) := by
  simp only [node, readProperties, bind, Except.bind, if_true, h]
  rfl

/-- A block map. -/
private theorem node_blockFields {bareList : Bool} {fuel : Nat} {tokens rest : List Token}
    {fields : List (Tree × Tree)} (h : blockFields handles fuel tokens = .ok (fields, rest)) :
    node handles true bareList (fuel + 1) (.blockMapStart :: tokens) =
      .ok (.map none .map fields, rest) := by
  simp only [node, readProperties, bind, Except.bind, if_true, h]
  rfl

/-- One more item. -/
private theorem bareItems_cons {fuel : Nat} {tokens rest rest' : List Token} {item : Tree}
    {items : List Tree}
    (hitem : node handles true false fuel (.blockMapStart :: tokens) = .ok (item, rest))
    (hitems : bareItems handles (fuel + 1) rest = .ok (items, rest')) :
    bareItems handles (fuel + 2) (.blockEntry :: .blockMapStart :: tokens) =
      .ok (item :: items, rest') := by
  have hunless : nodeUnless handles [.blockEntry, .key, .value, .blockEnd] true false (fuel + 1)
      (.blockMapStart :: tokens) = .ok (item, rest) := hitem
  simp only [bareItems, hunless, bind, Except.bind, hitems]

/-- One more field. -/
private theorem blockFields_cons {fuel : Nat} {key : String} {value rest rest' : List Token}
    {v : Tree} {fields : List (Tree × Tree)} (hkey : Tag.resolve key.toList = .text)
    (hsees : sees [.key, .value, .blockEnd] (value ++ rest) = false)
    (hvalue : node handles true true (fuel + 1) (value ++ rest) = .ok (v, rest))
    (hfields : blockFields handles (fuel + 3) rest = .ok (fields, rest')) :
    blockFields handles (fuel + 4) (fieldTokens key value ++ rest) =
      .ok ((.scalar none .text key, v) :: fields, rest') := by
  -- The key is a scalar that looks like a text, so its tag is that of a text.
  have hk : nodeUnless handles [.key, .value, .blockEnd] true true (fuel + 3)
      (.scalar key true :: .value :: (value ++ rest)) =
        .ok (.scalar none .text key, .value :: (value ++ rest)) := by
    have hscalar : Properties.scalar {} key true = .scalar none .text key := by
      simp [Properties.scalar, Properties.tagOr, Properties.isOpen, hkey]
    rw [← hscalar]
    rfl
  have hv : valueUnless handles [.key, .value, .blockEnd] true (fuel + 3)
      (.value :: (value ++ rest)) = .ok (v, rest) := by
    simp only [valueUnless, nodeUnless, hsees, Bool.false_eq_true, if_false, hvalue]
  simp only [fieldTokens, List.cons_append, blockFields, hk, hv, hfields, bind, Except.bind]

/-- Tokens that start as a value does. -/
private theorem sees_of_spellsValue {tokens : List Token} {j : Json} (h : SpellsValue tokens j)
    (rest : List Token) : sees [.key, .value, .blockEnd] (tokens ++ rest) = false := by
  cases h with
  | null | quoted | plain | emptyList => rfl
  | list h => cases h; rfl

/-- Behind the value of a field comes the next one, or the end of the block. -/
private theorem head?_of_spellsFields {tokens : List Token} {fields : List (String × Json)}
    (h : SpellsFields tokens fields) (rest : List Token) :
    (tokens ++ .blockEnd :: rest).head? ≠ some .blockEntry := by
  cases h <;> simp [fieldTokens]

/-! ## Values, items and fields -/

mutual

/-- What reading makes of the value of a field. -/
theorem node_value {tokens : List Token} {j : Json} (h : SpellsValue tokens j) :
    ∀ fuel rest, 4 * tokens.length + 1 < fuel → rest.head? ≠ some .blockEntry →
      node handles true true fuel (tokens ++ rest) = .ok (.ofJson j, rest) := by
  intro fuel rest hfuel hrest
  -- four steps for each token are enough
  obtain ⟨fuel, rfl⟩ : ∃ n, fuel = n + 2 := ⟨fuel - 2, by omega⟩
  match h with
  | .null => rfl
  | .quoted s => rfl
  | .plain hs =>
    rw [List.singleton_append, node_scalar]
    simp [Properties.scalar, Properties.tagOr, Properties.isOpen, hs, Tree.ofJson]
  | .emptyList => rfl
  | .list hitems =>
    have hread := bareItems_items hitems (fuel + 1) rest (by omega) hrest
    cases hitems with
    | cons => exact node_bareItems handles hread

/-- What reading makes of the items of a list of maps. -/
theorem bareItems_items {tokens : List Token} {js : List Json} (h : SpellsItems tokens js) :
    ∀ fuel rest, 4 * tokens.length < fuel → rest.head? ≠ some .blockEntry →
      bareItems handles fuel (tokens ++ rest) = .ok (itemsOfJson js, rest) := by
  intro fuel rest hfuel hrest
  match h with
  | .nil =>
    obtain ⟨fuel, rfl⟩ : ∃ n, fuel = n + 1 := ⟨fuel - 1, by omega⟩
    cases rest with
    | nil => rfl
    | cons t rest => cases t <;> first | rfl | exact absurd rfl hrest
  | @SpellsItems.cons fields more _ _ hfields hmore =>
    simp only [mapTokens, List.cons_append, List.length_cons, List.length_append, List.length_nil,
      List.append_assoc] at hfuel ⊢
    obtain ⟨fuel, rfl⟩ : ∃ n, fuel = n + 3 := ⟨fuel - 3, by omega⟩
    -- the end of the block of the item is in front of the other items
    have hblock := blockFields_fields hfields fuel (more ++ rest) (by omega)
    exact bareItems_cons handles (node_blockFields handles hblock)
      (bareItems_items hmore (fuel + 2) rest (by omega) hrest)

/-- What reading makes of the fields of a block. -/
theorem blockFields_fields {tokens : List Token} {fields : List (String × Json)}
    (h : SpellsFields tokens fields) :
    ∀ fuel rest, 4 * tokens.length < fuel →
      blockFields handles fuel (tokens ++ .blockEnd :: rest) = .ok (fieldsOfJson fields, rest) := by
  intro fuel rest hfuel
  match h with
  | .nil =>
    obtain ⟨fuel, rfl⟩ : ∃ n, fuel = n + 1 := ⟨fuel - 1, by omega⟩
    rfl
  | @SpellsFields.cons key value more _ _ hkey hvalue hmore =>
    have hlength : (fieldTokens key value ++ more).length = value.length + more.length + 3 := by
      simp [fieldTokens]
    rw [hlength] at hfuel
    obtain ⟨fuel, rfl⟩ : ∃ n, fuel = n + 4 := ⟨fuel - 4, by omega⟩
    rw [List.append_assoc]
    exact blockFields_cons handles hkey (sees_of_spellsValue hvalue _)
      (node_value hvalue (fuel + 1) _ (by omega) (head?_of_spellsFields hmore rest))
      (blockFields_fields hmore (fuel + 3) rest (by omega))

end

/-! ## Documents -/

/-- Whether a token is an alias or an anchor. -/
def isName : Token → Bool
  | .reference _ | .anchor _ => true
  | _ => false

mutual

/-- The tokens of a value give no name to it. -/
private theorem isName_value {tokens : List Token} {j : Json} (h : SpellsValue tokens j) :
    ∀ t ∈ tokens, isName t = false :=
  match h with
  | .null | .quoted _ | .plain _ | .emptyList => by simp [isName]
  | .list hitems => isName_items hitems

/-- Neither do those of the items of an array. -/
private theorem isName_items {tokens : List Token} {js : List Json} (h : SpellsItems tokens js) :
    ∀ t ∈ tokens, isName t = false :=
  match h with
  | .nil => by simp
  | .cons hfields hmore => by
    have hfields' := isName_fields hfields
    have hmore' := isName_items hmore
    simpa [mapTokens, isName, or_imp, forall_and] using ⟨hfields', hmore'⟩

/-- The fields of a map are without aliases and anchors. -/
private theorem isName_fields {tokens : List Token} {fields : List (String × Json)}
    (h : SpellsFields tokens fields) : ∀ t ∈ tokens, isName t = false :=
  match h with
  | .nil => by simp
  | .cons _ hvalue hmore => by
    have hvalue' := isName_value hvalue
    have hmore' := isName_fields hmore
    simpa [fieldTokens, isName, or_imp, forall_and] using ⟨hvalue', hmore'⟩

end

/-- Tokens without aliases and anchors are left alone. -/
private theorem checkAnchors_eq_self {tokens : List Token} (h : ∀ t ∈ tokens, isName t = false)
    (given : List String) : checkAnchors given tokens = tokens := by
  induction tokens with
  | nil => rfl
  | cons t tokens ih =>
    obtain ⟨ht, htokens⟩ := List.forall_mem_cons.mp h
    cases t <;> first | exact congrArg _ (ih htokens) | simp [isName] at ht

/-- The document with the block of a map. -/
theorem document_fields {tokens : List Token} {fields : List (String × Json)}
    (h : SpellsFields tokens fields) :
    document (mapTokens tokens) = .ok (some (.ofJson (.object fields))) := by
  have hnames : ∀ t ∈ mapTokens tokens, isName t = false := by
    have hfields := isName_fields h
    simpa [mapTokens, isName, or_imp, forall_and] using hfields
  have hlength : (mapTokens tokens).length = tokens.length + 2 := by simp [mapTokens]
  have hroot : root Handles.standard (mapTokens tokens) =
      .ok (.map none .map (fieldsOfJson fields), []) := by
    rw [root, hlength]
    exact node_blockFields _ (blockFields_fields _ h _ [] (by omega))
  rw [document, checkAnchors_eq_self hnames]
  simp only [mapTokens] at hroot ⊢
  simp only [hroot]
  rfl

end Structure

end VersionGate.Yaml

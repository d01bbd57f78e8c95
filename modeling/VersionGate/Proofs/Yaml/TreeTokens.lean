import Mathlib.Data.List.Forall2
import VersionGate.Proofs.Yaml.Scanning
import VersionGate.Yaml.Printer

/-!
# The tokens of a written tree

A tree is written as a block map with blocks inside of it, and the scanner finds these again by how
far in their lines start. What stands in a few lines is scanned the same whatever comes behind them,
as long as that starts in a new line and no further in: `Scanned`.

## Key results

- `nodeFields`: the tokens between the start and the end of the block of a node
- `scanned_renderNode`: the lines of a node are scanned as these tokens
- `scan_render`: the tokens of the document of a tree
-/

namespace VersionGate.Yaml

open Config Scanner

/-! ## The tokens -/

/-- The tokens of a field. -/
def fieldTokens (key : String) (value : List Token) : List Token :=
  .key :: .scalar key true :: .value :: value

/-- The tokens of a name, in a line that starts with `indent` blanks. -/
def nameTokens (indent : Nat) (name : Option String) : List Token :=
  fieldTokens "name" [match name with
    | none => .scalar "null" true
    | some name => textToken (indent + 2) name.toList]

/-- The tokens of a block map with some fields. -/
def mapTokens (fields : List Token) : List Token := .blockMapStart :: (fields ++ [.blockEnd])

/-- The tokens of a list of block maps, each given by its fields. -/
def listTokens (items : List (List Token)) : List Token :=
  if items.isEmpty then [.flowListStart, .flowListEnd]
  else items.flatMap fun fields => .blockEntry :: mapTokens fields

/-- The tokens of the fields of a value, in lines that start with `indent` blanks. -/
def valueFields (indent : Nat) (v : Value) : List Token :=
  nameTokens indent v.name ++ fieldTokens "value" [textToken (indent + 2) v.text.toList]

mutual

/-- The tokens of the fields of a node, in lines that start with `indent` blanks. -/
def nodeFields (indent : Nat) : Config.Node → List Token
  | ⟨name, values, nodes⟩ =>
    nameTokens indent name
      ++ fieldTokens "values" (listTokens (values.map (valueFields (indent + 2))))
      ++ fieldTokens "nodes" (listTokens (nodesFields (indent + 2) nodes))

/-- The tokens of the fields of nodes. -/
def nodesFields (indent : Nat) : List Config.Node → List (List Token)
  | [] => []
  | n :: ns => nodeFields indent n :: nodesFields indent ns

end

namespace Scanner

/-! ## Lines and what is behind a colon -/

/-- Whether lines that start in column `k`, where a key may start, are scanned as the given tokens,
from the open blocks `bs` on to the open blocks `bs'`. What comes behind them starts a line that is
no further in. -/
def Scanned (k : Nat) (bs bs' : List Nat) (cs : List Char) (tokens : List Token) : Prop :=
  ∀ ⦃c : Cursor⦄ ⦃ts result : List Token⦄ ⦃allowed : Bool⦄ ⦃k' : Nat⦄ ⦃after : List Char⦄,
    k' ≤ k → StartsLine after →
    Leads c allowed k (cs ++ '\n' :: (List.replicate k' ' ' ++ after)) →
    (∀ (e : Cursor) (allowed : Bool), Leads e allowed k' after →
      Scans (between e (tokens.reverse ++ ts) bs' allowed) result) →
    Scans (between c ts bs allowed) result

/-- The same for what stands behind the colon of a field in column `k`. -/
def ScannedBehind (k : Nat) (bs : List Nat) (cs : List Char) (tokens : List Token) : Prop :=
  ∀ ⦃d : Cursor⦄ ⦃ts result : List Token⦄ ⦃k' : Nat⦄ ⦃after : List Char⦄,
    k < d.column → k' ≤ k → StartsLine after →
    d.Before (cs ++ '\n' :: (List.replicate k' ' ' ++ after)) →
    (∀ (e : Cursor) (allowed : Bool), Leads e allowed k' after →
      Scans (between e (tokens.reverse ++ ts) bs allowed) result) →
    Scans (between d ts bs false) result

variable {k : Nat} {bs bs' bs'' : List Nat} {cs cs' : List Char} {tokens tokens' : List Token}

/-- Lines behind lines. -/
theorem Scanned.newLine (h : Scanned k bs bs' cs tokens)
    (hstarts : ∀ after, StartsLine (cs' ++ '\n' :: after))
    (h' : Scanned k bs' bs'' cs' tokens') :
    Scanned k bs bs'' (cs ++ Scalar.newLine k ++ cs') (tokens ++ tokens') := by
  intro c ts result allowed k' after hk hafter hc hrest
  have hc' : Leads c allowed k (cs ++ '\n' :: (List.replicate k ' '
      ++ (cs' ++ '\n' :: (List.replicate k' ' ' ++ after)))) := by
    simpa [Scalar.newLine] using hc
  refine h (Nat.le_refl k) (hstarts _) hc' fun e allowed he => h' hk hafter he ?_
  simpa using hrest

/-- A field. -/
private theorem scanned_field (opens : Bool) {key : String} {value : List Char}
    {valueTokens : List Token}
    (hkey : IsKey key.toList) (hopens : bs.head?.all (· < k) = opens) (hbs : ∀ b ∈ bs.head?, b ≤ k)
    (hvalue : ∀ after, endsOr isSeparator (value ++ '\n' :: after) = true)
    (h : ScannedBehind k (if opens then k :: bs else bs) value valueTokens) :
    Scanned k bs (if opens then k :: bs else bs) (key.toList ++ ':' :: value)
      ((if opens then [.blockMapStart] else []) ++ fieldTokens key valueTokens) := by
  intro c ts result allowed k' after hk hafter hc hrest
  have hc' : Leads c allowed k
      (key.toList ++ ':' :: (value ++ '\n' :: (List.replicate k' ' ' ++ after))) := by
    simpa using hc
  refine scans_key hkey (hvalue _) hopens hbs hc' fun d hd hcolumn => ?_
  refine h hcolumn hk hafter hd fun e allowed he => ?_
  cases opens <;> simpa [fieldTokens] using hrest e allowed he

/-- The first field of a map, which opens a block. -/
private theorem scanned_firstField {key : String} (value : List Char) {valueTokens : List Token}
    (hkey : IsKey key.toList) (hbs : ∀ b ∈ bs.head?, b < k)
    (hvalue : ∀ after, endsOr isSeparator (value ++ '\n' :: after) = true)
    (h : ScannedBehind k (k :: bs) value valueTokens) :
    Scanned k bs (k :: bs) (key.toList ++ ':' :: value)
      (.blockMapStart :: fieldTokens key valueTokens) :=
  scanned_field true hkey (by cases bs <;> simp_all)
    (fun b hb => Nat.le_of_lt (hbs b hb)) hvalue h

/-- A field in an open block. -/
private theorem scanned_nextField {key : String} {value : List Char} {valueTokens : List Token}
    (hkey : IsKey key.toList) (hvalue : ∀ after, endsOr isSeparator (value ++ '\n' :: after) = true)
    (h : ScannedBehind k (k :: bs) value valueTokens) :
    Scanned k (k :: bs) (k :: bs) (key.toList ++ ':' :: value) (fieldTokens key valueTokens) :=
  scanned_field false hkey (by simp) (by simp) hvalue h

/-- A text behind a colon. -/
private theorem scannedBehind_write {indent column : Nat} (hindent : k < indent)
    (hcolumn : indent ≤ column) (cs : List Char) :
    ScannedBehind k (k :: bs) (' ' :: Scalar.write indent column cs) [textToken indent cs] := by
  intro d ts result k' after hd hk hafter hbefore hrest
  exact scans_write hbefore rfl hd hindent hcolumn hk hafter hrest

/-- What stands for a missing name behind a colon. -/
private theorem scannedBehind_null :
    ScannedBehind k (k :: bs) " null".toList [.scalar "null" true] := by
  intro d ts result k' after hd hk hafter hbefore hrest
  have hwrite : Scalar.writeRuns (k + 1) true 0 (fun c => [c]) (Scalar.runs "null".toList) =
      "null".toList := rfl
  have hnull : d.Before (' ' :: (Scalar.writeRuns (k + 1) true 0 (fun c => [c])
      (Scalar.runs "null".toList) ++ '\n' :: (List.replicate k' ' ' ++ after))) := hbefore
  exact scans_plain (by decide) (by decide) hnull rfl hd (Nat.lt_succ_self k) hk hafter hrest

/-! ## Lists -/

/-- Whether the lines of an item behind a dash in column `k` are scanned as a block map with the
given fields. -/
def ScannedItem (k : Nat) (bs : List Nat) (item : List Char) (fields : List Token) : Prop :=
  Scanned (k + 2) (k :: bs) ((k + 2) :: k :: bs) item (.blockMapStart :: fields)

/-- What is written behind the key of a list in column `k`. -/
def listLines (k : Nat) (items : List (List Char)) : List Char :=
  if items.isEmpty then [' ', '[', ']']
  else items.flatMap fun item => Scalar.newLine k ++ '-' :: ' ' :: item

/-- The dash of an item starts a line. -/
private theorem startsLine_dash (cs : List Char) : StartsLine ('-' :: ' ' :: cs) :=
  .inr ⟨'-', ' ' :: cs, rfl, by decide, by decide, by decide, by decide, fun _ => rfl⟩

section Items

variable {k' : Nat} {after item : List Char} {fields ts result : List Token} {c : Cursor}
  {allowed : Bool}

/-- An item, the block of which ends in front of the next line. -/
private theorem scans_item (h : ScannedItem k bs item fields) (hk : k' ≤ k)
    (hafter : StartsLine after)
    (hc : Leads c allowed k ('-' :: ' ' :: (item ++ '\n' :: (List.replicate k' ' ' ++ after))))
    (hrest : ∀ (e : Cursor) (allowed : Bool), Leads e allowed k' after →
      Scans (between e ((.blockEntry :: mapTokens fields).reverse ++ ts) (k :: bs) allowed)
        result) :
    Scans (between c ts (k :: bs) allowed) result := by
  refine scans_dash hc rfl fun d hd => h (by omega) hafter hd fun e allowed he => ?_
  refine scans_close he hafter (by omega) ?_
  simpa [mapTokens] using hrest e allowed he

/-- Items one by one. -/
private theorem scans_items {items : List (List Char)} {fieldss : List (List Token)}
    (hitem : ScannedItem k bs item fields) (h : List.Forall₂ (ScannedItem k bs) items fieldss)
    (hk : k' ≤ k) (hafter : StartsLine after)
    (hc : Leads c allowed k ('-' :: ' ' :: (item
      ++ (items.flatMap (fun item => Scalar.newLine k ++ '-' :: ' ' :: item)
        ++ '\n' :: (List.replicate k' ' ' ++ after)))))
    (hrest : ∀ (e : Cursor) (allowed : Bool), Leads e allowed k' after →
      Scans (between e (((fields :: fieldss).flatMap fun fields =>
        .blockEntry :: mapTokens fields).reverse ++ ts) (k :: bs) allowed) result) :
    Scans (between c ts (k :: bs) allowed) result := by
  induction h generalizing item fields c ts allowed with
  | nil => exact scans_item hitem hk hafter hc (by simpa using hrest)
  | @cons item' fields' items fieldss hitem' h ih =>
    -- behind the item stands the dash of the next one, in the same column
    refine scans_item hitem (Nat.le_refl k) (startsLine_dash _)
      (by simpa [Scalar.newLine] using hc) fun e allowed he => ih hitem' he ?_
    simpa using hrest

end Items

/-- A list of maps behind a colon. -/
private theorem scannedBehind_list {items : List (List Char)} {fieldss : List (List Token)}
    (h : List.Forall₂ (ScannedItem k bs) items fieldss) :
    ScannedBehind k (k :: bs) (listLines k items) (listTokens fieldss) := by
  intro d ts result k' after hd hk hafter hbefore hrest
  cases h with
  | nil => exact scans_emptyList hbefore (by simpa using hd) hrest
  | @cons item fields items fieldss hitem h =>
    have hbefore' : d.Before ('\n' :: (List.replicate k ' ' ++ '-' :: ' ' :: (item
        ++ (items.flatMap (fun item => Scalar.newLine k ++ '-' :: ' ' :: item)
          ++ '\n' :: (List.replicate k' ' ' ++ after))))) := by
      simpa [listLines, Scalar.newLine] using hbefore
    exact scans_items hitem h hk hafter (.inr hbefore') hrest

/-! ## Trees -/

private theorem isKey_name : IsKey "name".toList := ⟨by decide, by decide, by decide⟩

private theorem isKey_value : IsKey "value".toList := ⟨by decide, by decide, by decide⟩

private theorem isKey_values : IsKey "values".toList := ⟨by decide, by decide, by decide⟩

private theorem isKey_nodes : IsKey "nodes".toList := ⟨by decide, by decide, by decide⟩

/-- What is written behind the key of a list goes on with a separator. -/
private theorem separated_list (items : List (List Char)) (after : List Char) :
    endsOr isSeparator (listLines k items ++ '\n' :: after) = true := by
  cases items <;> rfl

/-- The name of a value or a node, which opens a block. -/
private theorem scanned_renderName (hbs : ∀ b ∈ bs.head?, b < k) (name : Option String) :
    Scanned k bs (k :: bs) (renderName k name) (.blockMapStart :: nameTokens k name) := by
  cases name with
  | none =>
    exact scanned_firstField " null".toList isKey_name hbs (fun _ => rfl) scannedBehind_null
  | some name =>
    exact scanned_firstField (' ' :: Scalar.write (k + 2) (k + 6) name.toList) isKey_name hbs
      (fun _ => rfl) (scannedBehind_write (by omega) (by omega) _)

/-- A field with a list in the block of a node. -/
private theorem scanned_renderList {key : String} (hkey : IsKey key.toList)
    {items : List (List Char)}
    {fieldss : List (List Token)} (h : List.Forall₂ (ScannedItem k bs) items fieldss) :
    Scanned k (k :: bs) (k :: bs) (renderList k key items) (fieldTokens key (listTokens fieldss)) :=
  scanned_nextField hkey (separated_list items) (scannedBehind_list h)

/-- A field with a text is a key, a colon and a text. -/
private theorem renderText_eq (key s : String) : renderText k key s =
    key.toList ++ ':' :: ' ' :: Scalar.write (k + 2) (k + (key.toList.length + 2)) s.toList := by
  simp [renderText]

/-- A field in a line of its own. -/
private theorem startsLine_field {key : String} (hkey : IsKey key.toList)
    (value after : List Char) :
    StartsLine ((key.toList ++ ':' :: value) ++ '\n' :: after) := by
  rw [List.append_assoc]
  exact hkey.startsLine _

/-- A value is scanned as its tokens. -/
private theorem scanned_renderValue (hbs : ∀ b ∈ bs.head?, b < k) (v : Value) :
    Scanned k bs (k :: bs) (renderValue k v) (.blockMapStart :: valueFields k v) := by
  have htext : Scanned k (k :: bs) (k :: bs) (renderText k "value" v.text)
      (fieldTokens "value" [textToken (k + 2) v.text.toList]) := by
    rw [renderText_eq]
    exact scanned_nextField isKey_value (fun _ => rfl) (scannedBehind_write (by omega) (by omega) _)
  refine (scanned_renderName hbs v.name).newLine (fun after => ?_) htext
  rw [renderText_eq]
  exact startsLine_field isKey_value _ _

/-- The values of a node. -/
private theorem forall₂_scanned_values (values : List Value) : List.Forall₂ (ScannedItem k bs)
    (values.map (renderValue (k + 2))) (values.map (valueFields (k + 2))) := by
  rw [List.forall₂_map_left_iff, List.forall₂_map_right_iff, List.forall₂_same]
  intro v _
  exact scanned_renderValue (by simp) v

mutual

/-- The lines of a node are scanned as the tokens of its fields in a block. -/
theorem scanned_renderNode (k : Nat) (bs : List Nat) (hbs : ∀ b ∈ bs.head?, b < k) :
    ∀ n : Config.Node, Scanned k bs (k :: bs) (renderNode k n) (.blockMapStart :: nodeFields k n)
  | ⟨name, values, nodes⟩ => by
    have hvalues : Scanned k (k :: bs) (k :: bs)
        (renderList k "values" (values.map (renderValue (k + 2))))
        (fieldTokens "values" (listTokens (values.map (valueFields (k + 2))))) :=
      scanned_renderList isKey_values (forall₂_scanned_values values)
    have hnodes : Scanned k (k :: bs) (k :: bs)
        (renderList k "nodes" (renderNodes (k + 2) nodes))
        (fieldTokens "nodes" (listTokens (nodesFields (k + 2) nodes))) :=
      scanned_renderList isKey_nodes (forall₂_scanned_nodes k bs nodes)
    rw [renderNode, nodeFields]
    exact ((scanned_renderName hbs name).newLine (startsLine_field isKey_values _) hvalues).newLine
      (startsLine_field isKey_nodes _) hnodes

/-- The children of a node. -/
private theorem forall₂_scanned_nodes (k : Nat) (bs : List Nat) : ∀ nodes : List Config.Node,
    List.Forall₂ (ScannedItem k bs) (renderNodes (k + 2) nodes) (nodesFields (k + 2) nodes)
  | [] => .nil
  | n :: ns =>
    .cons (scanned_renderNode (k + 2) (k :: bs) (by simp) n) (forall₂_scanned_nodes k bs ns)

end

end Scanner

/-- The tokens of the document of a tree. -/
theorem scan_render (n : Config.Node) :
    Token.scan (renderNode 0 n ++ ['\n']) = mapTokens (nodeFields 0 n) := by
  have hstart : Leads (Cursor.start (renderNode 0 n ++ ['\n'])) true 0
      (renderNode 0 n ++ '\n' :: (List.replicate 0 ' ' ++ [])) :=
    .inl ⟨rfl, 0, Cursor.before_start _, rfl⟩
  have hscans : Scans (between (Cursor.start (renderNode 0 n ++ ['\n'])) [] [] true)
      (mapTokens (nodeFields 0 n)) := by
    refine scanned_renderNode 0 [] (by simp) n (Nat.le_refl 0) (.inl rfl) hstart ?_
    intro e allowed he
    -- nothing is left behind the last line, so the one open block ends
    have hend := scans_end ((Token.blockMapStart :: nodeFields 0 n).reverse ++ []) [0] he
    simpa [mapTokens, List.replicate_one] using hend
  exact hscans.run _ (by simp [between, Cursor.start, Cursor.left])

end VersionGate.Yaml

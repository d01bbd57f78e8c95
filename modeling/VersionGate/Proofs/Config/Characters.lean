import VersionGate.Config.Format
import VersionGate.Proofs.Annotation.Marker
import VersionGate.Proofs.Json.Text
import VersionGate.Proofs.Pruning.Result
import VersionGate.Proofs.Yaml.Written

/-!
# Trees of characters

A tree of characters has no half of one in any of its names and texts. Such a tree stays one when it
is pruned, and the text of the tree is one of characters in either format, so it can be written as
bytes.

## Key results

- `Node.IsWhole`: the trees of characters
- `Pruning.isWhole_result`: what a pass makes of such a tree
- `isWhole_toJson`: its JSON text
- `Format.isSome_whole?_render`: its text in either format
-/

namespace VersionGate

open Config

namespace Config

/-- Whether there is no half of a character in a name or a text of a value. -/
def Value.IsWhole (v : Value) : Prop :=
  (∀ s ∈ v.name, Text.IsWhole s.toList) ∧ Text.IsWhole v.text.toList

mutual

/-- Whether there is no half of a character in the names and texts of a tree. -/
def Node.IsWhole : Node → Prop
  | ⟨name, values, nodes⟩ =>
    (∀ s ∈ name, Text.IsWhole s.toList) ∧ (∀ v ∈ values, v.IsWhole) ∧ NodesWhole nodes

/-- Whether this is so for some trees. -/
def NodesWhole : List Node → Prop
  | [] => True
  | n :: ns => n.IsWhole ∧ NodesWhole ns

end

theorem Node.IsWhole.name {n : Node} (h : n.IsWhole) : ∀ s ∈ n.name, Text.IsWhole s.toList := by
  obtain ⟨name, values, nodes⟩ := n
  exact h.1

/-- A node with another name is whole if the name is. -/
theorem Node.IsWhole.rename {n : Node} (h : n.IsWhole) {name : Option String}
    (hname : ∀ s ∈ name, Text.IsWhole s.toList) : Node.IsWhole { n with name } := by
  obtain ⟨old, values, nodes⟩ := n
  exact ⟨hname, h.2⟩

end Config

/-! ## Pruning -/

/-- What is left of a name of characters without its annotation. -/
private theorem AnnotatedName.isWhole_stripped {name : Option String}
    (h : ∀ s ∈ name, Text.IsWhole s.toList) : ∀ s ∈ stripped name, Text.IsWhole s.toList := by
  cases name with
  | none => exact h
  | some name =>
    rw [stripped]
    cases hsplit : split (some name) with
    | error fault => exact h
    | ok annotated =>
      obtain ⟨stripped, requirement⟩ := annotated
      cases requirement with
      | none =>
        rw [eq_of_split_none hsplit]
        exact h
      | some requirement =>
        obtain ⟨p, hparts⟩ := exists_parts_of_split hsplit
        obtain ⟨tail, hmark⟩ := exists_eq_colon_cons hparts.marked.isMarker
        -- A marker starts with a colon, and the bracket closes the annotation.
        have hname := h name rfl
        rw [hparts.marked.text, hmark, List.append_assoc, List.cons_append] at hname
        obtain ⟨hbefore, hbehind⟩ := hname.of_append_cons (by decide)
        rw [← List.append_assoc] at hbehind
        obtain ⟨-, hrest⟩ := hbehind.of_append_cons (by decide)
        rw [split_of_parts hparts, Except.ok.injEq, mk.injEq] at hsplit
        rintro s hs
        obtain rfl : String.ofList (p.before ++ p.rest) = s := by
          simpa [← hsplit.1] using hs
        rw [String.toList_ofList]
        exact hbefore.append hrest

namespace Pruning

/-- The values that are kept are whole, without their annotations too. -/
private theorem isWhole_keptValues (running : Version) {values : List Value}
    (h : ∀ v ∈ values, v.IsWhole) : ∀ v ∈ keptValues running values, v.IsWhole := by
  intro v hv
  obtain ⟨old, hold, rfl⟩ := List.mem_map.mp hv
  obtain ⟨hname, htext⟩ := h old (List.mem_of_mem_filter hold)
  exact ⟨AnnotatedName.isWhole_stripped hname, htext⟩

mutual

/-- What stays of a tree of characters is one. -/
private theorem isWhole_keptPart (running : Version) : ∀ {n : Node}, n.IsWhole →
    (keptPart running n).IsWhole
  | ⟨_, _, _⟩, ⟨hname, hvalues, hnodes⟩ =>
    ⟨hname, isWhole_keptValues running hvalues, nodesWhole_keptNodes running hnodes⟩

/-- So are the children that stay. -/
private theorem nodesWhole_keptNodes (running : Version) : ∀ {ns : List Node}, NodesWhole ns →
    NodesWhole (keptNodes running ns)
  | [], _ => trivial
  | n :: ns, ⟨hn, hns⟩ => by
    rw [keptNodes]
    split
    · exact nodesWhole_keptNodes running hns
    · exact ⟨(isWhole_keptPart running hn).rename (AnnotatedName.isWhole_stripped hn.name),
        nodesWhole_keptNodes running hns⟩

end

end Pruning

/-! ## The JSON text -/

namespace Json

open Text (mark isWhole_of_not_mem)

/-- No escape ends inside a letter. -/
private theorem isWhole_escapeChar {c : Char} (hc : c ≠ mark) : Text.IsWhole (escapeChar c) := by
  rcases escapeChar_cases c with ⟨e, -, he, heq⟩ | ⟨-, heq⟩ | ⟨-, -, -, heq⟩
  · have hmark : e ≠ mark := by
      rintro rfl
      contradiction
    rw [heq]
    exact (Text.isWhole_singleton hmark).cons (by decide)
  · have hdigits : mark ∉ Text.hexDigits 4 c.toNat := by
      intro hmem
      exact absurd (Text.isHexDigit_of_mem_hexDigits hmem) (by decide)
    rw [heq]
    exact ((isWhole_of_not_mem hdigits).cons (by decide)).cons (by decide)
  · rw [heq]
    exact Text.isWhole_singleton hc

/-- A whole text is whole in JSON. -/
private theorem isWhole_encodeString {cs : List Char} (h : Text.IsWhole cs) :
    Text.IsWhole (encodeString cs) := by
  obtain ⟨chars, rfl⟩ := h
  have hchars : Text.IsWhole ((Text.spell chars).flatMap escapeChar) := by
    rw [Text.spell, List.flatMap_assoc]
    apply Text.isWhole_flatMap
    intro c _
    rw [Text.Letter.spell]
    split
    · exact ⟨[mark], by decide⟩
    · next hc =>
      rw [List.flatMap_singleton]
      exact isWhole_escapeChar hc
  exact (hchars.cons (by decide)).append (isWhole_of_not_mem (by decide))

private theorem isWhole_newLine (indent : Nat) : Text.IsWhole (newLine indent) := by
  apply isWhole_of_not_mem
  simp only [newLine, List.mem_cons, List.mem_replicate]
  rintro (h | ⟨-, h⟩)
  · exact absurd h (by decide)
  · exact absurd h (by decide)

/-- Whole parts with separators between them are whole. -/
private theorem isWhole_separated (indent : Nat) {parts : List (List Char)}
    (h : ∀ part ∈ parts, Text.IsWhole part) : Text.IsWhole (separated indent parts) := by
  induction parts with
  | nil => exact Text.isWhole_nil
  | cons part parts ih =>
    rw [List.forall_mem_cons] at h
    cases parts with
    | nil => exact h.1
    | cons next parts =>
      rw [separated]
      · exact (h.1.append ((isWhole_newLine indent).cons (by decide))).append (ih h.2)
      · simp

/-- Whole parts in brackets are whole. -/
private theorem isWhole_bracketed {left right : Char} (hleft : left ≠ mark) (hright : right ≠ mark)
    (indent : Nat) {parts : List (List Char)} (h : ∀ part ∈ parts, Text.IsWhole part) :
    Text.IsWhole (bracketed left right indent parts) := by
  have hend := Text.isWhole_singleton hright
  rw [bracketed]
  split
  · exact hend.cons hleft
  · have hparts := (isWhole_newLine (indent + 2)).append (isWhole_separated (indent + 2) h)
    have hall := ((hparts.append (isWhole_newLine indent)).append hend).cons hleft
    simpa using hall

end Json

namespace Config

open Json (renderAt renderItems)

/-- A name that is whole is written as a whole text. -/
private theorem isWhole_jsonOfName {name : Option String} (h : ∀ s ∈ name, Text.IsWhole s.toList)
    (indent : Nat) : Text.IsWhole (renderAt indent (jsonOfName name)) := by
  cases name with
  | none => exact Text.isWhole_of_not_mem (by decide : Text.mark ∉ "null".toList)
  | some name => exact Json.isWhole_encodeString (h name rfl)

/-- A field with a key of characters. -/
private theorem isWhole_field {key : String} (hkey : Text.mark ∉ key.toList) {value : List Char}
    (h : Text.IsWhole value) :
    Text.IsWhole (Json.encodeString key.toList ++ ':' :: ' ' :: value) :=
  (Json.isWhole_encodeString (Text.isWhole_of_not_mem hkey)).append
    ((h.cons (by decide)).cons (by decide))

/-- A value that is whole is written as a whole text. -/
private theorem isWhole_valueToJson {v : Value} (h : v.IsWhole) (indent : Nat) :
    Text.IsWhole (renderAt indent v.toJson) := by
  rw [Value.toJson, renderAt]
  apply Json.isWhole_bracketed (by decide) (by decide)
  simp only [Json.renderFields, List.forall_mem_cons]
  exact ⟨isWhole_field (by decide) (isWhole_jsonOfName h.1 _),
    isWhole_field (by decide) (Json.isWhole_encodeString h.2), List.forall_mem_nil _⟩

/-- So are all values of a node. -/
private theorem isWhole_valuesToJson {values : List Value} (h : ∀ v ∈ values, v.IsWhole)
    (indent : Nat) :
    ∀ item ∈ renderItems indent (values.map Value.toJson), Text.IsWhole item := by
  induction values with
  | nil => simp [renderItems]
  | cons v values ih =>
    rw [List.forall_mem_cons] at h
    rw [List.map_cons, renderItems, List.forall_mem_cons]
    exact ⟨isWhole_valueToJson h.1 indent, ih h.2⟩

mutual

/-- The JSON text of a tree of characters consists of characters. -/
theorem isWhole_toJson : ∀ {n : Node}, n.IsWhole → ∀ indent,
    Text.IsWhole (renderAt indent n.toJson)
  | ⟨name, values, nodes⟩, ⟨hname, hvalues, hnodes⟩, indent => by
    rw [Node.toJson, renderAt]
    apply Json.isWhole_bracketed (by decide) (by decide)
    simp only [Json.renderFields, List.forall_mem_cons, renderAt]
    exact ⟨isWhole_field (by decide) (isWhole_jsonOfName hname _),
      isWhole_field (by decide) (Json.isWhole_bracketed (by decide) (by decide) _
        (isWhole_valuesToJson hvalues _)),
      isWhole_field (by decide) (Json.isWhole_bracketed (by decide) (by decide) _
        (isWhole_nodesToJson hnodes _)), List.forall_mem_nil _⟩

/-- So do those of its children. -/
private theorem isWhole_nodesToJson : ∀ {nodes : List Node}, NodesWhole nodes → ∀ indent,
    ∀ item ∈ renderItems indent (nodesToJson nodes), Text.IsWhole item
  | [], _, _ => by simp [nodesToJson, renderItems]
  | n :: ns, ⟨hn, hns⟩, indent => by
    rw [nodesToJson, renderItems, List.forall_mem_cons]
    exact ⟨isWhole_toJson hn indent, isWhole_nodesToJson hns indent⟩

end

end Config

end VersionGate

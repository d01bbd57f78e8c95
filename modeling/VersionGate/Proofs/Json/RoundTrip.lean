import VersionGate.Json.Parser
import VersionGate.Json.Printer
import VersionGate.Proofs.Json.Text

/-!
# JSON read back

The text of a value without numbers, in whose objects no key comes twice, is read back as the value.
What is read is a prefix of the text, so every lemma says what is left, too. The steps that are
allowed are counted by characters: two for each one of the text that is read.

## Key results

- `readValue_renderAt`, `readItems_separated`, `readFields_separated`: what reading makes of the
  text of a value, of the items of an array and of the fields of an object
- `read_render`: reading undoes writing
-/

namespace VersionGate.Json

mutual

/-- Whether a value has no numbers in it and no object in which a key comes twice. -/
def Symbolic : Json → Prop
  | .null | .bool _ | .string _ => True
  | .int _ | .float _ => False
  | .array items => ItemsSymbolic items
  | .object fields => (fields.map (·.1)).Nodup ∧ FieldsSymbolic fields

/-- Whether all items of an array are symbolic. -/
def ItemsSymbolic : List Json → Prop
  | [] => True
  | j :: js => Symbolic j ∧ ItemsSymbolic js

/-- Whether the values of all fields of an object are symbolic. -/
def FieldsSymbolic : List (String × Json) → Prop
  | [] => True
  | (_, j) :: rest => Symbolic j ∧ FieldsSymbolic rest

end

/-! ## Blanks and first characters -/

/-- Whether a text starts as a value or the key of a field does, with no blank and no closing
bracket. -/
def Starts (cs : List Char) : Prop :=
  ∃ c rest, cs = c :: rest ∧ isBlank c = false ∧ c ≠ ']' ∧ c ≠ '\x7d'

/-- More text behind it does not change how a text starts. -/
theorem Starts.append {cs : List Char} (h : Starts cs) (rest : List Char) :
    Starts (cs ++ rest) := by
  obtain ⟨c, tail, rfl, hc⟩ := h
  exact ⟨c, tail ++ rest, rfl, hc⟩

private theorem starts_encodeString (s : List Char) : Starts (encodeString s) :=
  ⟨'"', _, rfl, by decide, by decide, by decide⟩

private theorem starts_bracketed {left : Char} (h : Starts [left]) (right : Char) (indent : Nat)
    (parts : List (List Char)) : Starts (bracketed left right indent parts) := by
  unfold bracketed
  split
  · exact h.append [right]
  · simpa using h.append _

/-- What is written for a value starts with no blank. -/
private theorem starts_renderAt (indent : Nat) {j : Json} (h : j.Symbolic) :
    Starts (renderAt indent j) := by
  cases j with
  | null => exact ⟨'n', _, rfl, by decide, by decide, by decide⟩
  | bool b => cases b <;> exact ⟨_, _, rfl, by decide, by decide, by decide⟩
  | int n => exact h.elim
  | float x => exact h.elim
  | string s => exact starts_encodeString s.toList
  | array items => exact starts_bracketed ⟨_, _, rfl, by decide, by decide, by decide⟩ ..
  | object fields => exact starts_bracketed ⟨_, _, rfl, by decide, by decide, by decide⟩ ..

/-- Nothing is passed over in front of what is no blank. -/
private theorem skipBlanks_cons {c : Char} (h : isBlank c = false) (cs : List Char) :
    skipBlanks (c :: cs) = c :: cs := by
  simp [skipBlanks, h]

/-- Nothing is passed over where a value starts. -/
theorem Starts.skipBlanks {cs : List Char} (h : Starts cs) : skipBlanks cs = cs := by
  obtain ⟨c, rest, rfl, hc, -, -⟩ := h
  exact skipBlanks_cons hc rest

/-- A line break is passed over with the blanks of the next line. -/
private theorem skipBlanks_newLine (indent : Nat) (cs : List Char) :
    skipBlanks (newLine indent ++ cs) = skipBlanks cs := by
  induction indent with
  | zero => rfl
  | succ indent ih => exact ih

/-! ## Keys and fields -/

/-- A field with a new key is put behind the others. -/
private theorem setField_of_not_mem {key : String} (j : Json) {fields : List (String × Json)}
    (h : key ∉ fields.map (·.1)) : setField key j fields = fields ++ [(key, j)] := by
  induction fields with
  | nil => rfl
  | cons field fields ih =>
    simp only [List.map_cons, List.mem_cons, not_or] at h
    rw [setField, if_neg (Ne.symm h.1), ih h.2, List.cons_append]

/-- A key that occurs once is none of those before it. -/
private theorem not_mem_of_nodup {key : String} {j : Json} {done fields : List (String × Json)}
    (h : ((done ++ (key, j) :: fields).map (·.1)).Nodup) : key ∉ done.map (·.1) := by
  rw [List.map_append, List.map_cons] at h
  exact fun hkey => (List.nodup_append.mp h).2.2 key hkey key List.mem_cons_self rfl

/-- A key is read back with its colon. -/
private theorem readKey_encodeString (key : String) {cs : List Char} (h : Starts cs) :
    readKey (encodeString key.toList ++ ':' :: ' ' :: cs) = .ok (key, cs) := by
  have hblank : skipBlanks (' ' :: cs) = cs := h.skipBlanks
  have hcolon : skipBlanks (':' :: ' ' :: cs) = ':' :: ' ' :: cs := skipBlanks_cons (by decide) _
  simp [encodeString, readKey, decodeString?_encoded, hcolon, hblank]

/-! ## Values -/

private theorem readValue_null (steps : Nat) (rest : List Char) :
    readValue (steps + 1) ("null".toList ++ rest) = .ok (.null, rest) := rfl

/-- A truth value is read back. -/
private theorem readValue_bool (b : Bool) (steps : Nat) (rest : List Char) :
    readValue (steps + 1) ((if b then "true" else "false").toList ++ rest) =
      .ok (.bool b, rest) := by
  cases b <;> rfl

/-- A text is read back. -/
private theorem readValue_encodeString (s : String) (steps : Nat) (rest : List Char) :
    readValue (steps + 1) (encodeString s.toList ++ rest) = .ok (.string s, rest) := by
  simp [encodeString, readValue, decodeString?_encoded]

/-- An array that is not empty is read by its items. -/
private theorem readValue_array {cs rest : List Char} {steps : Nat} {items : List Json}
    (indent : Nat) (hstart : Starts cs) (h : readItems steps cs = .ok (items, rest)) :
    readValue (steps + 1) ('[' :: newLine indent ++ cs) = .ok (.array items, rest) := by
  have hblank : skipBlanks (newLine indent ++ cs) = cs := by
    rw [skipBlanks_newLine, hstart.skipBlanks]
  obtain ⟨c, tail, rfl, -, hc, -⟩ := hstart
  simp only [List.cons_append, readValue, hblank]
  split
  · next heq => exact absurd (List.cons.inj heq).1 hc
  · rw [h]; rfl

/-- An object that is not empty is read by its fields. -/
private theorem readValue_object {cs rest : List Char} {steps : Nat} {fields : List (String × Json)}
    (indent : Nat) (hstart : Starts cs) (h : readFields steps [] cs = .ok (fields, rest)) :
    readValue (steps + 1) ('\x7b' :: newLine indent ++ cs) = .ok (.object fields, rest) := by
  have hblank : skipBlanks (newLine indent ++ cs) = cs := by
    rw [skipBlanks_newLine, hstart.skipBlanks]
  obtain ⟨c, tail, rfl, -, -, hc⟩ := hstart
  simp only [List.cons_append, readValue, hblank]
  split
  · next heq => exact absurd (List.cons.inj heq).1 hc
  · rw [h]; rfl

section Steps

variable {steps indent : Nat} {cs more rest : List Char} {j : Json}

/-- An item in front of a closing bracket is the last one. -/
private theorem readItems_last (h : readValue steps cs = .ok (j, newLine indent ++ ']' :: rest)) :
    readItems (steps + 1) cs = .ok ([j], rest) := by
  have hblank : skipBlanks (newLine indent ++ ']' :: rest) = ']' :: rest := by
    rw [skipBlanks_newLine, skipBlanks_cons (by decide)]
  simp only [readItems, h, bind, Except.bind, hblank]

/-- Behind an item with a comma the other items are read. -/
private theorem readItems_next {js : List Json} (hstart : Starts more)
    (h : readValue steps cs = .ok (j, ',' :: newLine indent ++ more))
    (hmore : readItems steps more = .ok (js, rest)) :
    readItems (steps + 1) cs = .ok (j :: js, rest) := by
  have hcomma : skipBlanks (',' :: (newLine indent ++ more)) = ',' :: (newLine indent ++ more) :=
    skipBlanks_cons (by decide) _
  have hblank : skipBlanks (newLine indent ++ more) = more := by
    rw [skipBlanks_newLine, hstart.skipBlanks]
  simp only [readItems, h, bind, Except.bind, hcomma, List.cons_append, hblank, hmore]

variable {key : String} {fields : List (String × Json)} (hfresh : key ∉ fields.map (·.1))
  (hstart : Starts cs)

include hfresh hstart

/-- A field in front of a closing brace is the last one. -/
private theorem readFields_last
    (h : readValue steps cs = .ok (j, newLine indent ++ '\x7d' :: rest)) :
    readFields (steps + 1) fields (encodeString key.toList ++ ':' :: ' ' :: cs) =
      .ok (fields ++ [(key, j)], rest) := by
  have hblank : skipBlanks (newLine indent ++ '\x7d' :: rest) = '\x7d' :: rest := by
    rw [skipBlanks_newLine, skipBlanks_cons (by decide)]
  simp only [readFields, readKey_encodeString key hstart, h, bind, Except.bind, hblank,
    setField_of_not_mem j hfresh]

/-- Behind a field with a comma the other fields are read. -/
private theorem readFields_next (hmore : Starts more)
    (h : readValue steps cs = .ok (j, ',' :: newLine indent ++ more)) :
    readFields (steps + 1) fields (encodeString key.toList ++ ':' :: ' ' :: cs) =
      readFields steps (fields ++ [(key, j)]) more := by
  have hcomma : skipBlanks (',' :: (newLine indent ++ more)) = ',' :: (newLine indent ++ more) :=
    skipBlanks_cons (by decide) _
  have hblank : skipBlanks (newLine indent ++ more) = more := by
    rw [skipBlanks_newLine, hmore.skipBlanks]
  simp only [readFields, readKey_encodeString key hstart, h, bind, Except.bind, hcomma,
    List.cons_append, hblank, setField_of_not_mem j hfresh]

end Steps

/-! ## Whole values -/

private theorem length_newLine (indent : Nat) : (newLine indent).length = indent + 1 := by
  simp [newLine]

/-- The text of items or fields is not empty, and its first part is the first of them. -/
private theorem starts_separated (indent : Nat) {part : List Char} (h : Starts part)
    (parts : List (List Char)) : Starts (separated indent (part :: parts)) := by
  cases parts with
  | nil => exact h
  | cons next parts => simpa [separated] using h.append _

/-- The text of an array or object that is not empty, up to its first part. -/
private theorem bracketed_cons (left right : Char) (indent : Nat) (part : List Char)
    (parts : List (List Char)) :
    bracketed left right indent (part :: parts) =
      left :: newLine (indent + 2) ++ separated (indent + 2) (part :: parts)
        ++ newLine indent ++ [right] := rfl

/-- The text of a field starts with its key. -/
private theorem starts_field (indent : Nat) (key : String) (j : Json) :
    Starts (encodeString key.toList ++ ':' :: ' ' :: renderAt indent j) :=
  (starts_encodeString key.toList).append _

private theorem separated_cons_cons (indent : Nat) (part next : List Char)
    (parts : List (List Char)) :
    separated indent (part :: next :: parts) =
      part ++ ',' :: newLine indent ++ separated indent (next :: parts) := rfl

mutual

/-- A value is read back, whatever follows it, in twice as many steps as it has characters. -/
theorem readValue_renderAt (indent : Nat) : ∀ (j : Json) (steps : Nat) (rest : List Char),
    j.Symbolic → 2 * (renderAt indent j).length ≤ steps →
      readValue steps (renderAt indent j ++ rest) = .ok (j, rest)
  | .null, steps + 1, rest, _, _ => readValue_null steps rest
  | .bool b, steps + 1, rest, _, _ => readValue_bool b steps rest
  | .string s, steps + 1, rest, _, _ => readValue_encodeString s steps rest
  | .array [], steps + 1, rest, _, _ => rfl
  | .array (j :: js), steps + 1, rest, h, hsteps => by
    -- the bracket and the line break in front of the items pay for the step that is taken here
    have hstart := starts_separated (indent + 2) (starts_renderAt (indent + 2) h.1)
      (renderItems (indent + 2) js)
    rw [renderAt, renderItems, bracketed_cons] at hsteps ⊢
    simp only [List.length_append, List.length_cons, length_newLine] at hsteps
    have hread := readItems_separated (indent + 2) indent j js steps rest h (by
      rw [renderItems]; omega)
    simpa using readValue_array (indent + 2) (hstart.append _) hread
  | .object [], steps + 1, rest, _, _ => rfl
  | .object ((key, j) :: fields), steps + 1, rest, h, hsteps => by
    have hstart := starts_separated (indent + 2) (starts_field (indent + 2) key j)
      (renderFields (indent + 2) fields)
    rw [renderAt, renderFields, bracketed_cons] at hsteps ⊢
    simp only [List.length_append, List.length_cons, length_newLine] at hsteps
    have hread := readFields_separated (indent + 2) indent key j fields [] steps rest h.1 h.2 (by
      rw [renderFields]; omega)
    simpa using readValue_object (indent + 2) (hstart.append _) hread
  | j, 0, rest, h, hsteps => by
    obtain ⟨c, cs, hcs, -⟩ := starts_renderAt indent h
    simp [hcs] at hsteps
termination_by structural _ steps => steps

/-- The items of an array are read back. -/
theorem readItems_separated (indent outer : Nat) :
    ∀ (j : Json) (js : List Json) (steps : Nat) (rest : List Char), ItemsSymbolic (j :: js) →
      2 * (separated indent (renderItems indent (j :: js))).length < steps →
      readItems steps (separated indent (renderItems indent (j :: js)) ++
        (newLine outer ++ ']' :: rest)) = .ok (j :: js, rest)
  | j, [], steps + 1, rest, h, hsteps =>
    readItems_last (readValue_renderAt indent j steps _ h.1 (Nat.le_of_lt_succ hsteps))
  | j, k :: js, steps + 1, rest, h, hsteps => by
    have hstart := starts_separated indent (starts_renderAt indent h.2.1) (renderItems indent js)
    rw [renderItems, renderItems, separated_cons_cons] at hsteps ⊢
    simp only [List.length_append, List.length_cons, length_newLine] at hsteps
    have hread := readValue_renderAt indent j steps (',' :: newLine indent ++
      (separated indent (renderItems indent (k :: js)) ++ (newLine outer ++ ']' :: rest))) h.1
      (by omega)
    have hmore := readItems_separated indent outer k js steps rest h.2 (by
      rw [renderItems]; omega)
    simpa [renderItems] using readItems_next (hstart.append _) hread hmore
termination_by structural _ _ steps => steps

/-- The fields of an object are read back, behind those that have been read. -/
theorem readFields_separated (indent outer : Nat) :
    ∀ (key : String) (j : Json) (fields done : List (String × Json)) (steps : Nat)
      (rest : List Char), ((done ++ (key, j) :: fields).map (·.1)).Nodup →
      FieldsSymbolic ((key, j) :: fields) →
      2 * (separated indent (renderFields indent ((key, j) :: fields))).length < steps →
      readFields steps done (separated indent (renderFields indent ((key, j) :: fields)) ++
        (newLine outer ++ '\x7d' :: rest)) = .ok (done ++ (key, j) :: fields, rest)
  | key, j, [], done, steps + 1, rest, hkeys, h, hsteps => by
    -- the key is a new one, so the field is put behind the others
    have hfresh := not_mem_of_nodup hkeys
    simp only [renderFields, separated, List.length_append, List.length_cons] at hsteps
    have hread := readValue_renderAt indent j steps (newLine outer ++ '\x7d' :: rest) h.1
      (by omega)
    simpa [renderFields, separated] using
      readFields_last hfresh ((starts_renderAt indent h.1).append _) hread
  | key, j, (key', j') :: fields, done, steps + 1, rest, hkeys, h, hsteps => by
    have hfresh := not_mem_of_nodup hkeys
    have hstart := starts_separated indent (starts_field indent key' j')
      (renderFields indent fields)
    rw [renderFields, renderFields, separated_cons_cons] at hsteps ⊢
    simp only [List.length_append, List.length_cons, length_newLine] at hsteps
    have hread := readValue_renderAt indent j steps (',' :: newLine indent ++
      (separated indent (renderFields indent ((key', j') :: fields))
        ++ (newLine outer ++ '\x7d' :: rest))) h.1 (by omega)
    have hmore := readFields_separated indent outer key' j' fields (done ++ [(key, j)]) steps rest
      (by simpa using hkeys) h.2 (by rw [renderFields]; omega)
    have hstep := readFields_next hfresh ((starts_renderAt indent h.1).append _)
      (hstart.append _) hread
    rw [← renderFields, hmore] at hstep
    simpa [renderFields] using hstep
termination_by structural _ _ _ _ steps => steps

end

/-- Reading undoes writing. -/
theorem read_render {j : Json} (h : j.Symbolic) : read (render j) = .ok j := by
  have hblank : skipBlanks (renderAt 0 j) = renderAt 0 j := (starts_renderAt 0 h).skipBlanks
  have hread : readValue (2 * (renderAt 0 j).length + 1) (renderAt 0 j) = .ok (j, []) := by
    simpa using readValue_renderAt 0 j (2 * (renderAt 0 j).length + 1) [] h (by omega)
  simp only [read, render, String.toList_ofList, readChars, hblank, hread, bind, Except.bind]
  rfl

end VersionGate.Json

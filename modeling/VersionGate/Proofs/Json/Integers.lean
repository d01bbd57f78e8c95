import VersionGate.Json.Parser
import VersionGate.Proofs.Data.Writable
import VersionGate.Proofs.Traversal
import Mathlib.Data.List.TakeDrop
import Mathlib.Data.List.TakeWhile

/-!
# Integers in JSON texts

An integer that is too long is refused when a JSON text is read. So the data in a text has none.

## Key results

- `writable_of_readValue`: the integers in a value that was read can be written
- `writable_of_read`: so can those in the data of a text
-/

namespace VersionGate.Json

open Data

/-- The items of an array can be written if each one can. -/
private theorem itemsWritable_itemsToDatum {items : List Json} :
    ItemsWritable (itemsToDatum items) ↔ ∀ j ∈ items, j.toDatum.Writable := by
  induction items with
  | nil => simp [itemsToDatum, ItemsWritable]
  | cons j items ih => rw [itemsToDatum, ItemsWritable, ih, List.forall_mem_cons]

/-- The fields of an object can be written if each one can. -/
private theorem fieldsWritable_fieldsToDatum {fields : List (String × Json)} :
    FieldsWritable (fieldsToDatum fields) ↔ ∀ field ∈ fields, field.2.toDatum.Writable := by
  induction fields with
  | nil => simp [fieldsToDatum, FieldsWritable]
  | cons field fields ih =>
    rw [fieldsToDatum, FieldsWritable, ih, List.forall_mem_cons]
    exact and_iff_right trivial

/-! ## Reading -/

/-- The digits of a whole number are digits. -/
private theorem isDigit_of_wholePart? {cs whole rest : List Char}
    (h : wholePart? cs = some (whole, rest)) : ∀ c ∈ whole, c.isDigit = true := by
  unfold wholePart? at h
  split at h
  · obtain ⟨rfl, -⟩ := Prod.mk.inj (Option.some.inj h)
    simp
  · split at h
    · contradiction
    · next ds rest' hdigits =>
      obtain ⟨rfl, -⟩ := Prod.mk.inj (Option.some.inj h)
      rw [digits, List.span_eq_takeWhile_dropWhile, Prod.mk.injEq] at hdigits
      intro c hc
      exact List.mem_takeWhile_imp (hdigits.1 ▸ hc)

/-- An integer that was read has few enough digits to be written. -/
private theorem writable_of_readNumber {cs rest : List Char} {j : Json}
    (h : readNumber cs = .ok (j, rest)) : j.toDatum.Writable := by
  unfold readNumber at h
  split at h
  simp only at h
  split at h
  · contradiction
  · next negative cs' _ _ whole rest' hwhole =>
    split at h
    · split at h
      · contradiction
      · next n hn =>
        -- Without a fraction and an exponent it is an integer, with the digits of its whole part.
        obtain ⟨rfl, -⟩ := Prod.mk.inj (Except.ok.inj h)
        have hlt := Decimal.lt_of_read (isDigit_of_wholePart? hwhole) hn
        cases negative with
        | true => simpa [toDatum, Datum.Writable, Scalar.Writable] using hlt
        | false => simpa [toDatum, Datum.Writable, Scalar.Writable] using hlt
    · obtain ⟨rfl, -⟩ := Prod.mk.inj (Except.ok.inj h)
      trivial

/-- Setting a field to a value brings in no integer that the value does not have. -/
private theorem writable_of_mem_setField {key : String} {j : Json} {fields : List (String × Json)}
    (hfields : ∀ field ∈ fields, field.2.toDatum.Writable) (hj : j.toDatum.Writable) :
    ∀ field ∈ setField key j fields, field.2.toDatum.Writable := by
  induction fields with
  | nil => simpa [setField] using hj
  | cons field fields ih =>
    obtain ⟨k, old⟩ := field
    rw [List.forall_mem_cons] at hfields
    rw [setField]
    by_cases hk : k = key
    · rw [if_pos hk, List.forall_mem_cons]
      exact ⟨hj, hfields.2⟩
    · rw [if_neg hk, List.forall_mem_cons]
      exact ⟨hfields.1, ih hfields.2⟩

/-- What the words stand for has no integers. -/
private theorem writable_of_readWord? {cs rest : List Char} {j : Json}
    (h : readWord? cs = some (j, rest)) : j.toDatum.Writable := by
  obtain ⟨⟨word, value⟩, hmem, hword⟩ := List.exists_of_findSome?_eq_some h
  obtain ⟨rest', -, hvalue⟩ := Option.map_eq_some_iff.mp hword
  obtain ⟨rfl, -⟩ := Prod.mk.inj hvalue
  have hall : ∀ found ∈ words, found.2.toDatum.Writable := by
    simp only [words, List.forall_mem_cons]
    exact ⟨trivial, trivial, trivial, trivial, trivial, trivial, nofun⟩
  exact hall _ hmem

/-- What the readers give in so many steps has no integers that are too long. -/
structure ReadsWritable (steps : Nat) : Prop where
  value : ∀ {cs j rest}, readValue steps cs = .ok (j, rest) → j.toDatum.Writable
  items : ∀ {cs items rest}, readItems steps cs = .ok (items, rest) →
    ∀ j ∈ items, j.toDatum.Writable
  fields : ∀ {before cs fields rest}, (∀ field ∈ before, field.2.toDatum.Writable) →
    readFields steps before cs = .ok (fields, rest) → ∀ field ∈ fields, field.2.toDatum.Writable

section

variable {steps : Nat} (ih : ReadsWritable steps)
include ih

/-- A value that was read can be written if its parts can. -/
theorem writable_of_readValue {cs rest : List Char} {j : Json}
    (h : readValue (steps + 1) cs = .ok (j, rest)) : j.toDatum.Writable := by
  unfold readValue at h
  -- By the first character it is a string, an array or an object, and else a word or a number.
  split at h
  · split at h
    · contradiction
    · obtain ⟨rfl, -⟩ := Prod.mk.inj (Except.ok.inj h)
      trivial
  · split at h
    · obtain ⟨rfl, -⟩ := Prod.mk.inj (Except.ok.inj h)
      trivial
    · rw [Except.bind_eq_ok_iff] at h
      obtain ⟨⟨items, rest'⟩, hitems, h⟩ := h
      obtain ⟨rfl, -⟩ := Prod.mk.inj (Except.ok.inj h)
      exact itemsWritable_itemsToDatum.mpr (ih.items hitems)
  · split at h
    · obtain ⟨rfl, -⟩ := Prod.mk.inj (Except.ok.inj h)
      trivial
    · rw [Except.bind_eq_ok_iff] at h
      obtain ⟨⟨fields, rest'⟩, hfields, h⟩ := h
      obtain ⟨rfl, -⟩ := Prod.mk.inj (Except.ok.inj h)
      exact fieldsWritable_fieldsToDatum.mpr (ih.fields (by simp) hfields)
  · split at h
    · next found hword =>
      rw [Except.ok.inj h] at hword
      exact writable_of_readWord? hword
    · exact writable_of_readNumber h

/-- So can the items of an array. -/
private theorem writable_of_readItems {cs rest : List Char} {items : List Json}
    (h : readItems (steps + 1) cs = .ok (items, rest)) : ∀ j ∈ items, j.toDatum.Writable := by
  unfold readItems at h
  rw [Except.bind_eq_ok_iff] at h
  obtain ⟨⟨item, rest'⟩, hitem, h⟩ := h
  have hfirst := ih.value hitem
  simp only at h
  split at h
  · obtain ⟨rfl, -⟩ := Prod.mk.inj (Except.ok.inj h)
    simpa using hfirst
  · rw [Except.bind_eq_ok_iff] at h
    obtain ⟨⟨others, rest''⟩, hothers, h⟩ := h
    obtain ⟨rfl, -⟩ := Prod.mk.inj (Except.ok.inj h)
    rw [List.forall_mem_cons]
    exact ⟨hfirst, ih.items hothers⟩
  · contradiction

/-- So can the fields of an object, with those before them. -/
private theorem writable_of_readFields {before fields : List (String × Json)} {cs rest : List Char}
    (hbefore : ∀ field ∈ before, field.2.toDatum.Writable)
    (h : readFields (steps + 1) before cs = .ok (fields, rest)) :
    ∀ field ∈ fields, field.2.toDatum.Writable := by
  unfold readFields at h
  rw [Except.bind_eq_ok_iff] at h
  obtain ⟨⟨key, rest'⟩, -, h⟩ := h
  simp only [Except.bind_eq_ok_iff] at h
  obtain ⟨⟨j, rest''⟩, hj, h⟩ := h
  have hset : ∀ field ∈ setField key j before, field.2.toDatum.Writable :=
    writable_of_mem_setField hbefore (ih.value hj)
  simp only at h
  split at h
  · obtain ⟨rfl, -⟩ := Prod.mk.inj (Except.ok.inj h)
    exact hset
  · exact ih.fields hset h
  · contradiction

end

/-- All that is read can be written, however many steps it takes. -/
private theorem readsWritable (steps : Nat) : ReadsWritable steps := by
  induction steps with
  | zero => exact ⟨by simp [readValue], by simp [readItems], by simp [readFields]⟩
  | succ steps ih =>
    exact ⟨writable_of_readValue ih, writable_of_readItems ih, writable_of_readFields ih⟩

/-- The integers in the data of a JSON text can be written. -/
theorem writable_of_read {s : String} {j : Json} (h : read s = .ok j) : j.toDatum.Writable := by
  unfold read readChars at h
  rw [Except.bind_eq_ok_iff] at h
  obtain ⟨⟨value, rest⟩, hvalue, h⟩ := h
  simp only at h
  split at h
  · rw [← Except.ok.inj h]
    exact (readsWritable _).value hvalue
  · contradiction

end VersionGate.Json

import VersionGate.Data.Datum
import VersionGate.Proofs.Decimal

/-!
# Data that can be written

The only data without a text is an integer whose numeral is too long. So a datum has its texts if no
such integer is anywhere in it, whatever labels there are.

## Key results

- `exists_text`, `exists_shown`: data in which all integers can be written has its texts
-/

namespace VersionGate.Data

/-- Whether a scalar is no integer that is too long to be written. -/
def Scalar.Writable : Scalar → Prop
  | .int n => n.natAbs < 10 ^ Decimal.maxDigits
  | _ => True

mutual

/-- Whether all integers in a datum can be written. -/
def Datum.Writable : Datum → Prop
  | .scalar s => s.Writable
  | .list _ items => ItemsWritable items
  | .map _ fields => FieldsWritable fields
  | .set elements => ∀ k ∈ elements, k.Writable
  | .pairs _ items => PairsWritable items

/-- Whether all integers in some items can be written. -/
def ItemsWritable : List Datum → Prop
  | [] => True
  | d :: ds => d.Writable ∧ ItemsWritable ds

/-- Whether all integers in some fields can be written. -/
def FieldsWritable : List (Scalar × Datum) → Prop
  | [] => True
  | (key, d) :: rest => key.Writable ∧ d.Writable ∧ FieldsWritable rest

/-- Whether all integers in some pairs can be written. -/
def PairsWritable : List (Datum × Datum) → Prop
  | [] => True
  | (key, d) :: rest => key.Writable ∧ d.Writable ∧ PairsWritable rest

end

/-- All integers in items can be written if they can in each of them. -/
theorem itemsWritable_iff {items : List Datum} :
    ItemsWritable items ↔ ∀ d ∈ items, d.Writable := by
  induction items with
  | nil => simp [ItemsWritable]
  | cons d items ih => rw [ItemsWritable, ih, List.forall_mem_cons]

/-- All integers in the data under a key can be written if they can in all fields. -/
theorem writable_of_field? {key : String} {fields : List (Scalar × Datum)} {d : Datum}
    (h : FieldsWritable fields) (hd : Datum.field? key fields = some d) : d.Writable := by
  induction fields with
  | nil => exact nomatch hd
  | cons field fields ih =>
    obtain ⟨k, first⟩ := field
    obtain ⟨-, hfirst, hrest⟩ : k.Writable ∧ first.Writable ∧ FieldsWritable fields := h
    rw [Datum.field?] at hd
    by_cases hk : k = .text key
    · rw [if_pos hk] at hd
      exact Option.some.inj hd ▸ hfirst
    · rw [if_neg hk] at hd
      exact ih hrest hd

/-! ## Texts -/

/-- A scalar that can be written has a text of its own. -/
private theorem Scalar.exists_plainText {s : Scalar} (h : s.Writable) :
    ∃ text, s.plainText = .ok text := by
  cases s with
  | int n =>
    have hlength : (Decimal.ofNat n.natAbs).length ≤ Decimal.maxDigits :=
      (Decimal.length_ofNat_le_iff (by decide)).mpr h
    exact ⟨_, by rw [plainText, Decimal.write, if_pos hlength]⟩
  | _ => exact ⟨_, rfl⟩

/-- A scalar that can be written has a text inside other data. -/
theorem Scalar.exists_shown {s : Scalar} (h : s.Writable) : ∃ text, s.shown = .ok text := by
  cases s with
  | text | date | datetime => exact ⟨_, rfl⟩
  | _ => exact exists_plainText h

/-- The elements of a set have texts if all integers among them can be written. -/
private theorem exists_shownElements : ∀ {ks : List Scalar}, (∀ k ∈ ks, k.Writable) →
    ∃ texts, Datum.shownElements ks = .ok texts
  | [], _ => ⟨[], rfl⟩
  | k :: ks, h => by
    obtain ⟨hk, hks⟩ := List.forall_mem_cons.mp h
    obtain ⟨first, hfirst⟩ := k.exists_shown hk
    obtain ⟨rest, hrest⟩ := exists_shownElements hks
    exact ⟨first :: rest, by simp only [Datum.shownElements, hfirst, hrest]; rfl⟩

/-- Data between brackets has a text if its parts have, and also if it is cut short. -/
private theorem exists_bracketed {texts : Except Decimal.TooLong (List String)}
    (h : ∃ parts, texts = .ok parts) (again : Bool) (shell opening closing : String) :
    ∃ text, (if again then .ok shell
      else do return opening ++ Datum.joined (← texts) ++ closing :
        Except Decimal.TooLong String) = .ok text := by
  obtain ⟨parts, rfl⟩ := h
  cases again <;> exact ⟨_, rfl⟩

mutual

/-- Data in which all integers can be written is shown, whatever it is inside of. -/
private theorem exists_shownIn : ∀ {d : Datum} (inside : List Nat), d.Writable →
    ∃ text, Datum.shownIn inside d = .ok text
  | .scalar s, inside, h => by
    rw [Datum.shownIn]
    exact s.exists_shown h
  | .list label items, inside, h => by
    rw [Datum.shownIn]
    exact exists_bracketed (exists_shownItems (label.toList ++ inside) h) _ _ _ _
  | .map label fields, inside, h => by
    rw [Datum.shownIn]
    exact exists_bracketed (exists_shownFields (label.toList ++ inside) h) _ _ _ _
  | .set [], inside, h => ⟨_, by rw [Datum.shownIn]⟩
  | .set (k :: ks), inside, h => by
    obtain ⟨parts, hparts⟩ : ∃ texts, Datum.shownElements (k :: ks) = .ok texts :=
      exists_shownElements h
    rw [Datum.shownIn, hparts]
    exact ⟨_, rfl⟩
  | .pairs label items, inside, h => by
    rw [Datum.shownIn]
    exact exists_bracketed (exists_shownPairs (label.toList ++ inside) h) _ _ _ _

/-- The items of such data are shown. -/
private theorem exists_shownItems :
    ∀ {items : List Datum} (inside : List Nat), ItemsWritable items →
    ∃ texts, Datum.shownItems inside items = .ok texts
  | [], inside, _ => ⟨[], by rw [Datum.shownItems]⟩
  | d :: ds, inside, h => by
    obtain ⟨hd, hds⟩ : d.Writable ∧ ItemsWritable ds := h
    obtain ⟨first, hfirst⟩ := exists_shownIn inside hd
    obtain ⟨rest, hrest⟩ := exists_shownItems inside hds
    rw [Datum.shownItems, hfirst, hrest]
    exact ⟨_, rfl⟩

/-- Its fields are shown. -/
private theorem exists_shownFields : ∀ {fields : List (Scalar × Datum)} (inside : List Nat),
    FieldsWritable fields → ∃ texts, Datum.shownFields inside fields = .ok texts
  | [], inside, _ => ⟨[], by rw [Datum.shownFields]⟩
  | (key, d) :: rest, inside, h => by
    obtain ⟨hkey, hd, hrest⟩ : key.Writable ∧ d.Writable ∧ FieldsWritable rest := h
    obtain ⟨keyText, hkeyText⟩ := key.exists_shown hkey
    obtain ⟨text, htext⟩ := exists_shownIn inside hd
    obtain ⟨texts, htexts⟩ := exists_shownFields inside hrest
    rw [Datum.shownFields, hkeyText, htext, htexts]
    exact ⟨_, rfl⟩

/-- Its pairs are shown. -/
private theorem exists_shownPairs : ∀ {items : List (Datum × Datum)} (inside : List Nat),
    PairsWritable items → ∃ texts, Datum.shownPairs inside items = .ok texts
  | [], inside, _ => ⟨[], by rw [Datum.shownPairs]⟩
  | (key, d) :: rest, inside, h => by
    obtain ⟨hkey, hd, hrest⟩ : key.Writable ∧ d.Writable ∧ PairsWritable rest := h
    obtain ⟨keyText, hkeyText⟩ := exists_shownIn inside hkey
    obtain ⟨text, htext⟩ := exists_shownIn inside hd
    obtain ⟨texts, htexts⟩ := exists_shownPairs inside hrest
    rw [Datum.shownPairs, hkeyText, htext, htexts]
    exact ⟨_, rfl⟩

end

/-- Data in which all integers can be written is shown. -/
theorem Datum.exists_shown {d : Datum} (h : d.Writable) : ∃ text, d.shown = .ok text :=
  exists_shownIn [] h

/-- Data in which all integers can be written has a text of its own. -/
theorem Datum.exists_text {d : Datum} (h : d.Writable) : ∃ text, d.text = .ok text := by
  cases d with
  | scalar s => exact s.exists_plainText h
  | list | map | set | pairs => exact exists_shown h

end VersionGate.Data

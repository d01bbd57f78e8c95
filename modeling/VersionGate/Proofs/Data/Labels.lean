import VersionGate.Json.Basic

/-!
# The labels of data

Labels say where data contains itself, and nothing else. Without them data that was shared or
numbered is what it would be if it were written out. What has all its labels apart from those that
it is inside of does not contain itself.

## Key results

- `unlabelled`: the data apart from its labels
- `Datum.Apart`: data that does not contain itself
- `unlabelled_toDatum`, `apart_toDatum`: data that was written out has no labels, so it never
  contains itself
-/

namespace VersionGate.Data

mutual

/-- A datum without its labels. -/
def Datum.unlabelled : Datum → Datum
  | .scalar s => .scalar s
  | .list _ items => .list none (unlabelledItems items)
  | .map _ fields => .map none (unlabelledFields fields)
  | .set elements => .set elements
  | .pairs _ items => .pairs none (unlabelledPairs items)

/-- Items without labels. -/
def unlabelledItems : List Datum → List Datum
  | [] => []
  | d :: ds => d.unlabelled :: unlabelledItems ds

/-- Fields without labels. -/
def unlabelledFields : List (Scalar × Datum) → List (Scalar × Datum)
  | [] => []
  | (k, d) :: rest => (k, d.unlabelled) :: unlabelledFields rest

/-- Pairs without labels. -/
def unlabelledPairs : List (Datum × Datum) → List (Datum × Datum)
  | [] => []
  | (k, d) :: rest => (k.unlabelled, d.unlabelled) :: unlabelledPairs rest

end

/-- Whether nothing in a datum has a label from `inside`, or that of something it is inside of. -/
inductive Datum.Apart : List Nat → Datum → Prop
  | scalar {inside : List Nat} {s : Scalar} : Apart inside (.scalar s)
  | set {inside : List Nat} {elements : List Scalar} : Apart inside (.set elements)
  | list {inside : List Nat} {label : Option Nat} {items : List Datum}
      (hlabel : isInside inside label = false)
      (hitems : ∀ d ∈ items, Apart (label.toList ++ inside) d) : Apart inside (.list label items)
  | map {inside : List Nat} {label : Option Nat} {fields : List (Scalar × Datum)}
      (hlabel : isInside inside label = false)
      (hfields : ∀ f ∈ fields, Apart (label.toList ++ inside) f.2) :
      Apart inside (.map label fields)
  | pairs {inside : List Nat} {label : Option Nat} {items : List (Datum × Datum)}
      (hlabel : isInside inside label = false)
      (hkeys : ∀ p ∈ items, Apart (label.toList ++ inside) p.1)
      (hvalues : ∀ p ∈ items, Apart (label.toList ++ inside) p.2) :
      Apart inside (.pairs label items)

/-! ## What has no labels -/

mutual

/-- The data of a JSON value has no labels to lose. -/
theorem unlabelled_toDatum : ∀ j : Json, j.toDatum.unlabelled = j.toDatum
  | .null | .bool _ | .int _ | .float _ | .string _ => rfl
  | .array items => congrArg (Datum.list none) (unlabelledItems_itemsToDatum items)
  | .object fields => congrArg (Datum.map none) (unlabelledFields_fieldsToDatum fields)

/-- Neither has that of the items of an array. -/
private theorem unlabelledItems_itemsToDatum :
    ∀ js : List Json, unlabelledItems (Json.itemsToDatum js) = Json.itemsToDatum js
  | [] => rfl
  | j :: js => by
    rw [Json.itemsToDatum, unlabelledItems, unlabelled_toDatum j, unlabelledItems_itemsToDatum js]

/-- Neither has that of the fields of an object. -/
private theorem unlabelledFields_fieldsToDatum :
    ∀ fields : List (String × Json),
      unlabelledFields (Json.fieldsToDatum fields) = Json.fieldsToDatum fields
  | [] => rfl
  | (key, j) :: fields => by
    rw [Json.fieldsToDatum, unlabelledFields, unlabelled_toDatum j,
      unlabelledFields_fieldsToDatum fields]

end

mutual

/-- The data of a JSON value does not contain itself, whatever it is inside of. -/
theorem apart_toDatum (inside : List Nat) : ∀ j : Json, j.toDatum.Apart inside
  | .null | .bool _ | .int _ | .float _ | .string _ => .scalar
  | .array items => .list rfl (apart_itemsToDatum inside items)
  | .object fields => .map rfl (apart_fieldsToDatum inside fields)

/-- Neither does that of the items of an array. -/
private theorem apart_itemsToDatum (inside : List Nat) :
    ∀ js : List Json, ∀ d ∈ Json.itemsToDatum js, d.Apart inside
  | [] => by simp [Json.itemsToDatum]
  | j :: js => List.forall_mem_cons.mpr ⟨apart_toDatum inside j, apart_itemsToDatum inside js⟩

/-- Neither does that of the fields of an object. -/
private theorem apart_fieldsToDatum (inside : List Nat) :
    ∀ fields : List (String × Json), ∀ f ∈ Json.fieldsToDatum fields, f.2.Apart inside
  | [] => by simp [Json.fieldsToDatum]
  | (_, j) :: fields =>
    List.forall_mem_cons.mpr ⟨apart_toDatum inside j, apart_fieldsToDatum inside fields⟩

end

/-! ## Being inside -/

/-- What is inside of nothing with its label is one of no number that it is inside of. -/
theorem Datum.isInside_eq_false_iff {inside : List Nat} {label : Option Nat} :
    isInside inside label = false ↔ ∀ n ∈ label, n ∉ inside := by
  cases label <;> simp [isInside]

/-- What is apart from some labels is apart from fewer of them. -/
private theorem Datum.Apart.mono {inside inside' : List Nat} {d : Datum} (h : d.Apart inside)
    (hsub : ∀ n ∈ inside', n ∈ inside) : d.Apart inside' := by
  have hless : ∀ {inside inside' : List Nat} {label : Option Nat}, (∀ n ∈ inside', n ∈ inside) →
      isInside inside label = false → isInside inside' label = false := fun hsub hlabel =>
    isInside_eq_false_iff.mpr fun n hn hmem => isInside_eq_false_iff.mp hlabel n hn (hsub n hmem)
  have hmore : ∀ {inside inside' : List Nat} (label : Option Nat), (∀ n ∈ inside', n ∈ inside) →
      ∀ n ∈ label.toList ++ inside', n ∈ label.toList ++ inside := fun label hsub n hn =>
    List.mem_append.mpr ((List.mem_append.mp hn).imp_right (hsub n))
  induction h generalizing inside' with
  | scalar => exact .scalar
  | set => exact .set
  | list hlabel _ hitems =>
    exact .list (hless hsub hlabel) fun d hd => hitems d hd (hmore _ hsub)
  | map hlabel _ hfields =>
    exact .map (hless hsub hlabel) fun f hf => hfields f hf (hmore _ hsub)
  | pairs hlabel _ _ hkeys hvalues =>
    exact .pairs (hless hsub hlabel) (fun p hp => hkeys p hp (hmore _ hsub))
      fun p hp => hvalues p hp (hmore _ hsub)

/-- Fields that hold data which is apart hold it under each key. -/
private theorem Datum.apart_of_field? {inside : List Nat} {key : String} {d : Datum} :
    ∀ {fields : List (Scalar × Datum)}, (∀ f ∈ fields, f.2.Apart inside) →
      Datum.field? key fields = some d → d.Apart inside
  | [], _, h => nomatch h
  | (k, first) :: rest, hall, h => by
    obtain ⟨hfirst, hrest⟩ := List.forall_mem_cons.mp hall
    rw [Datum.field?] at h
    split at h
    · exact Option.some.inj h ▸ hfirst
    · exact apart_of_field? hrest h

/-- An item of a list in a map is apart from all that the map is inside of, and from the map. -/
theorem Datum.Apart.item {inside : List Nat} {label label' : Option Nat}
    {fields : List (Scalar × Datum)} {items : List Datum} {d : Datum}
    (h : (Datum.map label fields).Apart inside) (key : String)
    (hfield : Datum.field? key fields = some (.list label' items)) (hd : d ∈ items) :
    d.Apart (label.toList ++ inside) := by
  cases h with
  | map _ hfields =>
    cases apart_of_field? hfields hfield with
    | list _ hitems => exact (hitems d hd).mono fun n hn => List.mem_append_right _ hn

/-! ## What has given data apart from its labels -/

variable {d d' : Datum} {ds items : List Datum} {fs fields : List (Scalar × Datum)}

/-- A scalar has no labels. -/
theorem of_unlabelled_scalar {s : Scalar} (h : d.unlabelled = .scalar s) : d = .scalar s := by
  cases d with
  | scalar t => exact h
  | list | map | set | pairs => exact absurd h (by simp [Datum.unlabelled])

/-- What is a list apart from its labels is a list of what its items are. -/
theorem of_unlabelled_list (h : d.unlabelled = .list none items) :
    ∃ label ds, d = .list label ds ∧ unlabelledItems ds = items := by
  cases d with
  | list label ds => exact ⟨label, ds, rfl, by simpa [Datum.unlabelled] using h⟩
  | scalar | map | set | pairs => exact absurd h (by simp [Datum.unlabelled])

/-- What is a map apart from its labels is a map of what its fields are. -/
theorem of_unlabelled_map (h : d.unlabelled = .map none fields) :
    ∃ label fs, d = .map label fs ∧ unlabelledFields fs = fields := by
  cases d with
  | map label fs => exact ⟨label, fs, rfl, by simpa [Datum.unlabelled] using h⟩
  | scalar | list | set | pairs => exact absurd h (by simp [Datum.unlabelled])

/-- No items are none with labels either. -/
theorem of_unlabelledItems_nil (h : unlabelledItems ds = []) : ds = [] := by
  cases ds with
  | nil => rfl
  | cons d ds => exact absurd h (by simp [unlabelledItems])

/-- The first item is the first one with its labels, and so are the others. -/
theorem of_unlabelledItems_cons (h : unlabelledItems ds = d :: items) :
    ∃ d' ds', ds = d' :: ds' ∧ d'.unlabelled = d ∧ unlabelledItems ds' = items := by
  cases ds with
  | nil => exact absurd h (by simp [unlabelledItems])
  | cons d' ds' =>
    obtain ⟨hd, hds⟩ := List.cons.inj h
    exact ⟨d', ds', rfl, hd, hds⟩

/-- The first field has the same key with labels, and so do the others. -/
theorem of_unlabelledFields_cons {key : Scalar} (h : unlabelledFields fs = (key, d) :: fields) :
    ∃ d' fs', fs = (key, d') :: fs' ∧ d'.unlabelled = d ∧ unlabelledFields fs' = fields := by
  cases fs with
  | nil => exact absurd h (by simp [unlabelledFields])
  | cons f fs' =>
    obtain ⟨hf, hfs⟩ := List.cons.inj h
    obtain ⟨rfl, hd⟩ := Prod.mk.inj hf
    exact ⟨f.2, fs', rfl, hd, hfs⟩

end VersionGate.Data

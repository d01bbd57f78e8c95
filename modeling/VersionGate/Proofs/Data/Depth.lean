import Mathlib.Data.List.Forall2
import VersionGate.Data.Store

/-!
# How deep data is looked at

Stored data that contains itself is unfolded so deep that nobody sees where it is cut off. `AlikeTo`
says that two data are the same some layers deep, where all that is further in is in data with
labels from a list. A datum is shown in the same way as another one that is like it deep enough: on
the way in every label comes at most once before it is noticed.

## Key results

- `AlikeTo.shownIn_eq`: data that is alike deep enough is shown in the same way
- `Store.alikeTo_unfoldWith`: how far unfolded data does not depend on what is in place of the rest
-/

namespace VersionGate.Data

/-! ## Data that is alike -/

/-- Whether two data are the same, or have the same label from `labels` and parts that are related
one by one. -/
inductive AlikeBy (labels : List Nat) (r : Datum → Datum → Prop) : Datum → Datum → Prop
  | same (d : Datum) : AlikeBy labels r d d
  | list {n : Nat} {ds ds' : List Datum} (hn : n ∈ labels) (h : List.Forall₂ r ds ds') :
      AlikeBy labels r (.list (some n) ds) (.list (some n) ds')
  | map {n : Nat} {fs fs' : List (Scalar × Datum)} (hn : n ∈ labels)
      (h : List.Forall₂ (fun f f' => f.1 = f'.1 ∧ r f.2 f'.2) fs fs') :
      AlikeBy labels r (.map (some n) fs) (.map (some n) fs')
  | pairs {n : Nat} {ps ps' : List (Datum × Datum)} (hn : n ∈ labels)
      (h : List.Forall₂ (fun p p' => r p.1 p'.1 ∧ r p.2 p'.2) ps ps') :
      AlikeBy labels r (.pairs (some n) ps) (.pairs (some n) ps')

/-- Whether two data are alike some layers deep. -/
def AlikeTo (labels : List Nat) : Nat → Datum → Datum → Prop
  | 0 => fun _ _ => True
  | depth + 1 => AlikeBy labels (AlikeTo labels depth)

variable {labels inside : List Nat} {n depth : Nat} {d d' : Datum}

/-- Data is like itself. -/
theorem AlikeTo.refl (labels : List Nat) (d : Datum) : ∀ depth, AlikeTo labels depth d d
  | 0 => trivial
  | _ + 1 => .same d

/-! ## The labels that are left -/

/-- How many labels are left for the data inside of that with the labels in `inside`. -/
def left (labels inside : List Nat) : Nat := (labels.filter fun n => !inside.contains n).length

/-- No more labels can be left than there are. -/
theorem left_le (labels inside : List Nat) : left labels inside ≤ labels.length :=
  List.length_filter_le _ _

/-- A label that was left is not left any more inside of the data that has it. -/
theorem left_cons_lt (hn : n ∈ labels) (hnew : Datum.isInside inside (some n) = false) :
    left labels (n :: inside) < left labels inside := by
  have hsub : (labels.filter fun m => !(n :: inside).contains m) =
      (labels.filter fun m => !inside.contains m).filter (· != n) := by
    rw [List.filter_filter]
    refine List.filter_congr fun m _ => ?_
    rw [List.contains_cons, Bool.not_or]
    rfl
  have hmem : n ∈ labels.filter fun m => !inside.contains m :=
    List.mem_filter.mpr ⟨hn, by simpa [Datum.isInside] using hnew⟩
  rw [left, left, hsub]
  exact List.length_filter_lt_length_iff_exists.mpr ⟨n, hmem, by simp⟩

/-! ## Showing -/

/-- Items that are shown in the same way one by one have the same texts. -/
private theorem shownItems_congr {ds ds' : List Datum}
    (h : List.Forall₂ (fun d d' => Datum.shownIn inside d = Datum.shownIn inside d') ds ds') :
    Datum.shownItems inside ds = Datum.shownItems inside ds' := by
  induction h with
  | nil => rfl
  | cons hd _ ih => rw [Datum.shownItems, Datum.shownItems, hd, ih]

/-- Fields with the same keys and with data that is shown in the same way have the same texts. -/
private theorem shownFields_congr {fs fs' : List (Scalar × Datum)}
    (h : List.Forall₂
      (fun f f' => f.1 = f'.1 ∧ Datum.shownIn inside f.2 = Datum.shownIn inside f'.2) fs fs') :
    Datum.shownFields inside fs = Datum.shownFields inside fs' := by
  induction h with
  | nil => rfl
  | @cons f f' _ _ hf _ ih =>
    obtain ⟨k, d⟩ := f
    obtain ⟨k', d'⟩ := f'
    obtain ⟨rfl, hd⟩ : k = k' ∧ Datum.shownIn inside d = Datum.shownIn inside d' := hf
    rw [Datum.shownFields, Datum.shownFields, hd, ih]

/-- Pairs of data that is shown in the same way have the same texts. -/
private theorem shownPairs_congr {ps ps' : List (Datum × Datum)}
    (h : List.Forall₂ (fun p p' => Datum.shownIn inside p.1 = Datum.shownIn inside p'.1 ∧
      Datum.shownIn inside p.2 = Datum.shownIn inside p'.2) ps ps') :
    Datum.shownPairs inside ps = Datum.shownPairs inside ps' := by
  induction h with
  | nil => rfl
  | @cons p p' _ _ hp _ ih =>
    obtain ⟨k, d⟩ := p
    obtain ⟨k', d'⟩ := p'
    obtain ⟨hk, hd⟩ : Datum.shownIn inside k = Datum.shownIn inside k' ∧
      Datum.shownIn inside d = Datum.shownIn inside d' := hp
    rw [Datum.shownPairs, Datum.shownPairs, hk, hd, ih]

/-- Data that is alike deep enough is shown in the same way: deeper than there are labels left. -/
theorem AlikeTo.shownIn_eq (h : AlikeTo labels depth d d') (hdepth : left labels inside < depth) :
    Datum.shownIn inside d = Datum.shownIn inside d' := by
  induction depth generalizing d d' inside with
  | zero => exact absurd hdepth (Nat.not_lt_zero _)
  | succ depth ih =>
    -- what is inside itself is cut short, and its parts have a label less left
    have hparts : ∀ {n}, n ∈ labels → Datum.isInside inside (some n) = false → ∀ {e e' : Datum},
        AlikeTo labels depth e e' →
          Datum.shownIn (n :: inside) e = Datum.shownIn (n :: inside) e' :=
      fun hn hnew _ _ he => ih he (by have := left_cons_lt hn hnew; omega)
    cases h with
    | same => rfl
    | @list n ds ds' hn h =>
      rw [Datum.shownIn, Datum.shownIn]
      cases hnew : Datum.isInside inside (some n) with
      | true => rfl
      | false =>
        have hitems := shownItems_congr (h.imp fun _ _ he => hparts hn hnew he)
        simp only [Option.toList_some, List.cons_append, List.nil_append, hitems]
    | @map n fs fs' hn h =>
      rw [Datum.shownIn, Datum.shownIn]
      cases hnew : Datum.isInside inside (some n) with
      | true => rfl
      | false =>
        have hfields := shownFields_congr (h.imp fun _ _ hf => ⟨hf.1, hparts hn hnew hf.2⟩)
        simp only [Option.toList_some, List.cons_append, List.nil_append, hfields]
    | @pairs n ps ps' hn h =>
      rw [Datum.shownIn, Datum.shownIn]
      cases hnew : Datum.isInside inside (some n) with
      | true => rfl
      | false =>
        have hpairs := shownPairs_congr
          (h.imp fun _ _ hp => ⟨hparts hn hnew hp.1, hparts hn hnew hp.2⟩)
        simp only [Option.toList_some, List.cons_append, List.nil_append, hpairs]

/-- Data that is alike deeper than there are labels is shown in the same way. -/
theorem AlikeTo.shown_eq (h : AlikeTo labels depth d d') (hdepth : labels.length < depth) :
    d.shown = d'.shown := h.shownIn_eq (Nat.lt_of_le_of_lt (left_le labels []) hdepth)

/-! ## Unfolding -/

namespace Store

variable {store : Store} {known : Known} (cut cut' : Datum)

/-- Data that is unfolded some layers deep is alike so deep, whatever is in place of the rest. -/
private theorem alikeTo_deepen : ∀ (depth n : Nat), AlikeTo (store.unknown known) depth
    ((store.deepen known cut depth)[n]?.getD .null) ((store.deepen known cut' depth)[n]?.getD .null)
  | 0, _ => trivial
  | depth + 1, n => by
    have ih := alikeTo_deepen depth
    rw [deepen, deepen, Array.getElem?_mapIdx, Array.getElem?_mapIdx]
    cases hcell : store[n]? with
    | none => exact .refl _ _ _
    | some cell =>
      cases hknown : known.get? n with
      | some d => exact .same d
      | none =>
        obtain ⟨hn, -⟩ := Array.getElem?_eq_some_iff.mp hcell
        have hmem : n ∈ store.unknown known :=
          List.mem_filter.mpr ⟨List.mem_range.mpr hn, by rw [hknown]; rfl⟩
        cases cell with
        | scalar s => exact .same _
        | set elements => exact .same _
        | list items => exact .list hmem (List.forall₂_map_left_iff.mpr
            (List.forall₂_map_right_iff.mpr (List.forall₂_same.mpr fun m _ => ih m)))
        | map fields => exact .map hmem (List.forall₂_map_left_iff.mpr
            (List.forall₂_map_right_iff.mpr (List.forall₂_same.mpr fun f _ => ⟨rfl, ih f.2⟩)))
        | pairs items => exact .pairs hmem (List.forall₂_map_left_iff.mpr
            (List.forall₂_map_right_iff.mpr (List.forall₂_same.mpr fun p _ => ⟨ih p.1, ih p.2⟩)))

/-- Data that is unfolded is alike three times as deep as it has labels, whatever is in place of the
rest. -/
theorem alikeTo_unfoldWith (store : Store) (root : Nat) :
    ∃ labels, AlikeTo labels (3 * labels.length + 2) (store.unfoldWith cut root)
      (store.unfoldWith cut' root) := by
  unfold unfoldWith
  generalize store.growUntil root _ _ = known
  refine ⟨store.unknown known, ?_⟩
  dsimp only
  cases known.get? root with
  | some d => exact .refl _ d _
  | none => exact alikeTo_deepen cut cut' (store.layers known) root

end Store

end VersionGate.Data

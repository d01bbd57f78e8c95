import VersionGate.Proofs.Config.Description
import VersionGate.Proofs.Data.Depth

/-!
# Loading data that contains itself

Stored data that contains itself is cut off somewhere when it is unfolded. Loading a tree never gets
there: with every level of the tree it goes two layers in, through a map and a list, and the map has
a label less left for the nodes inside of it. Where no label is left it comes to a map that it is
inside of, and never ends. On the way it shows data, for which there is as much room left as there
are labels. So what loading says of unfolded data is what there is to say of the data as a whole.

## Key results

- `Node.ofDatumIn_congr`: data that is alike deep enough is loaded in the same way
- `ofDatum_unfoldWith`: loading unfolded data does not depend on what is in place of the rest
-/

namespace VersionGate.Config

open Data

variable {labels inside : List Nat} {depth : Nat} {d d' : Datum} {fs fs' : List (Scalar × Datum)}

/-- Whether fields have the same keys and data that is alike some layers deep. -/
private def FieldsAlike (labels : List Nat) (depth : Nat) (fs fs' : List (Scalar × Datum)) : Prop :=
  List.Forall₂ (fun f f' => f.1 = f'.1 ∧ AlikeTo labels depth f.2 f'.2) fs fs'

/-- What stands under a key is alike. -/
private theorem FieldsAlike.field? (h : FieldsAlike labels depth fs fs') (key : String) :
    Option.Rel (AlikeTo labels depth) (Datum.field? key fs) (Datum.field? key fs') := by
  induction h with
  | nil => exact .none
  | @cons f f' _ _ hf _ ih =>
    obtain ⟨k, d⟩ := f
    obtain ⟨k', d'⟩ := f'
    obtain ⟨rfl, hd⟩ : k = k' ∧ AlikeTo labels depth d d' := hf
    rw [Datum.field?, Datum.field?]
    by_cases hk : k = .text key
    · rw [if_pos hk, if_pos hk]
      exact .some hd
    · rw [if_neg hk, if_neg hk]
      exact ih

/-- The same name is taken from fields that are alike, or refused in the same way. -/
private theorem FieldsAlike.nameOf_eq (h : FieldsAlike labels depth fs fs')
    (hdepth : labels.length < depth) (refuse : Kind → String → LoadFault) :
    nameOf refuse fs = nameOf refuse fs' := by
  obtain ⟨depth, rfl⟩ := Nat.exists_eq_add_one_of_ne_zero (Nat.ne_zero_of_lt hdepth)
  have hrel := h.field? "name"
  unfold nameOf
  generalize Datum.field? "name" fs = name?, Datum.field? "name" fs' = name?' at hrel ⊢
  cases hrel with
  | none => rfl
  | some hrel =>
    have hshown := hrel.shown_eq hdepth
    cases hrel with
    | same => rfl
    | list | map | pairs => simp only [hshown, Datum.kind]

/-- Values from data that is alike are the same, and so are their faults. -/
private theorem valueOfDatum_congr (h : AlikeTo labels depth d d')
    (hdepth : labels.length + 2 ≤ depth) : Value.ofDatum d = Value.ofDatum d' := by
  obtain ⟨depth, rfl⟩ := Nat.exists_eq_add_of_le' (Nat.le_of_add_left_le hdepth)
  cases h with
  | same => rfl
  | list | pairs => rfl
  | @map n fs fs' hn h =>
    have hfields : FieldsAlike labels (depth + 1) fs fs' := h
    have hrel := hfields.field? "value"
    rw [Value.ofDatum, Value.ofDatum, hfields.nameOf_eq (by omega)]
    generalize Datum.field? "value" fs = value?, Datum.field? "value" fs' = value?' at hrel ⊢
    cases hrel with
    | none => rfl
    | some hrel =>
      have hshown := hrel.shown_eq (by omega)
      cases hrel with
      | same => rfl
      | list | map | pairs => simp only [Datum.text, hshown]

/-- Parts that are alike stand in place of a list, or the same fault. Then what is made of them one
by one is the same. -/
private theorem mapM_partsOf_congr {β : Type} {f : Datum → Except LoadFault β}
    (h : AlikeTo labels (depth + 1) d d') (hf : ∀ e e', AlikeTo labels depth e e' → f e = f e')
    (refuse : Kind → LoadFault) :
    (partsOf refuse d >>= List.mapM f) = (partsOf refuse d' >>= List.mapM f) := by
  cases h with
  | same => rfl
  | list _ h => exact List.mapM_congr_forall₂ (h.imp hf)
  | map _ h =>
    cases h with
    | nil => rfl
    | @cons g g' _ _ hg _ =>
      obtain ⟨k, e⟩ := g
      obtain ⟨k', e'⟩ := g'
      obtain ⟨rfl, -⟩ : k = k' ∧ AlikeTo labels depth e e' := hg
      rfl
  | pairs _ h => cases h <;> rfl

/-- What is made of the items under a key is the same for fields that are alike. -/
private theorem FieldsAlike.mapM_itemsOf_eq {β : Type} {f : Datum → Except LoadFault β}
    (h : FieldsAlike labels (depth + 1) fs fs')
    (hf : ∀ e e', AlikeTo labels depth e e' → f e = f e') (refuse : Kind → LoadFault)
    (key : String) :
    (itemsOf refuse key fs >>= List.mapM f) = (itemsOf refuse key fs' >>= List.mapM f) := by
  have hrel := h.field? key
  unfold itemsOf
  generalize Datum.field? key fs = part?, Datum.field? key fs' = part?' at hrel ⊢
  cases hrel with
  | none => rfl
  | some hrel => exact mapM_partsOf_congr hrel hf refuse

/-- Data that is alike deep enough is loaded in the same way: two layers for each label that is
left, and as much again as it takes to show something. -/
theorem Node.ofDatumIn_congr (h : AlikeTo labels depth d d')
    (hdepth : 2 * left labels inside + labels.length + 2 ≤ depth) :
    Node.ofDatumIn inside d = Node.ofDatumIn inside d' := by
  induction depth using Nat.strongRecOn generalizing inside d d' with
  | ind depth ih =>
    obtain ⟨depth, rfl⟩ := Nat.exists_eq_add_of_le' (Nat.le_of_add_left_le hdepth)
    cases h with
    | same => rfl
    | list | pairs => rfl
    | @map n fs fs' hn h =>
      have hfields : FieldsAlike labels (depth + 1) fs fs' := h
      cases hnew : Datum.isInside inside (some n) with
      | true => rw [ofDatumIn_again hnew, ofDatumIn_again hnew]
      | false =>
        -- the children are two layers further in, and have a label less left
        have hleft := left_cons_lt hn hnew
        have hchild : ∀ e e', AlikeTo labels depth e e' →
            Node.ofDatumIn (n :: inside) e = Node.ofDatumIn (n :: inside) e' :=
          fun _ _ he => ih depth (by omega) he (by omega)
        have hvalue : ∀ e e', AlikeTo labels depth e e' → Value.ofDatum e = Value.ofDatum e' :=
          fun _ _ he => valueOfDatum_congr he (by omega)
        have hname := hfields.nameOf_eq (by omega) .nodeName
        have hvalues := hfields.mapM_itemsOf_eq hvalue .notValue "values"
        have hnodes := hfields.mapM_itemsOf_eq hchild .notNode "nodes"
        rw [ofDatumIn_map hnew, ofDatumIn_map hnew, hname, hvalues]
        simp only [Option.toList_some, List.cons_append, List.nil_append, hnodes]

/-- Loading unfolded data does not depend on what is in place of the rest. -/
theorem ofDatum_unfoldWith (cut cut' : Datum) (store : Store) (root : Nat) :
    Node.ofDatum (store.unfoldWith cut root) = Node.ofDatum (store.unfoldWith cut' root) := by
  obtain ⟨labels, h⟩ := Store.alikeTo_unfoldWith cut cut' store root
  have hleft := left_le labels []
  exact Node.ofDatumIn_congr h (by omega)

end VersionGate.Config

import VersionGate.Proofs.Requirement.Meaning
import Mathlib.Data.Set.Basic

/-!
# Rearranging requirements

What a text means depends on which sets of terms its groups are, and on nothing else: not on which
of the two separators stands between groups, on the order and the number of equal groups and of
equal terms in a group, or on bars with nothing between them. Two texts that come from each other by
such changes are `Rearranged`.

## Key results

- `termTexts_bar`: a bar beside a separator makes no difference
- `Rearranged.termSets_eq`: rearranging keeps the sets of terms
- `readable_congr`, `textHolds_congr`: what texts with the same sets of terms have in common
-/

namespace VersionGate.Requirement

/-- A place in a text that is beside a separator or at one of the ends. -/
def BesideSeparator (front back : List Char) : Prop :=
  (∀ c ∈ front.getLast?, separator? c ≠ none) ∨ ∀ c ∈ back.head?, separator? c ≠ none

/-- Texts that come from each other by changes that do not matter. -/
inductive Rearranged : List Char → List Char → Prop
  /-- The two separators of groups may stand for each other. -/
  | separator {s t : Char} (hs : endsGroup s = true) (ht : endsGroup t = true)
      (front back : List Char) : Rearranged (front ++ s :: back) (front ++ t :: back)
  /-- Groups may come in any order and as often as one likes. -/
  | groups {cs ds : List Char}
      (h : ∀ segment, segment ∈ Text.pieces endsGroup cs ↔ segment ∈ Text.pieces endsGroup ds) :
      Rearranged cs ds
  /-- In every group, so may terms. -/
  | terms {cs ds : List Char}
      (h : List.Forall₂ (fun segment segment' => ∀ piece,
        piece ∈ Text.pieces endsTerm segment ↔ piece ∈ Text.pieces endsTerm segment')
        (Text.pieces endsGroup cs) (Text.pieces endsGroup ds)) :
      Rearranged cs ds
  /-- Bars may be put in beside a separator and at the ends. -/
  | bar {front back : List Char} (h : BesideSeparator front back) :
      Rearranged (front ++ back) (front ++ '|' :: back)
  | symm {cs ds : List Char} (h : Rearranged cs ds) : Rearranged ds cs
  | trans {cs ds es : List Char} (h : Rearranged cs ds) (h' : Rearranged ds es) : Rearranged cs es

/-- The sets of terms that the groups of a text are. -/
def termSets (cs : List Char) : Set (Set (List Char)) :=
  {group | ∃ terms ∈ termTexts cs, group = {piece | piece ∈ terms}}

/-! ## Bars -/

/-- A bar at the front makes no difference. -/
private theorem termTexts_bar_cons (cs : List Char) : termTexts ('|' :: cs) = termTexts cs := by
  obtain ⟨terms, groups, hcs, hbar⟩ :=
    termTexts_run_bar (w := []) (s := '|') (by simp [IsRun]) rfl cs
  rw [hcs]
  exact hbar

/-- A bar at the end makes no difference. -/
private theorem termTexts_concat_bar (cs : List Char) : termTexts (cs ++ ['|']) = termTexts cs := by
  obtain ⟨front, last, hcs, hbar⟩ := exists_termTexts_bar cs (s := '|') rfl
  have hnil : termTexts [] = [[]] := rfl
  rw [hbar hnil, hcs, List.append_nil]

/-- A second bar makes no difference. -/
private theorem termTexts_bar_bar (cs ds : List Char) :
    termTexts (cs ++ '|' :: '|' :: ds) = termTexts (cs ++ '|' :: ds) := by
  obtain ⟨front, last, -, hbar⟩ := exists_termTexts_bar cs (s := '|') rfl
  obtain ⟨terms, groups, hds⟩ : ∃ terms groups, termTexts ds = terms :: groups :=
    List.exists_cons_of_ne_nil (by simp [termTexts, Text.pieces_ne_nil])
  rw [hbar hds, hbar ((termTexts_bar_cons ds).trans hds)]

/-- A separator is one of groups or the bar. -/
private theorem separator_cases {c : Char} (h : separator? c ≠ none) :
    separator? c = some .and ∨ c = '|' := by
  obtain ⟨kind, hkind⟩ := Option.ne_none_iff_exists'.mp h
  cases kind with
  | and => exact .inl hkind
  | or => exact .inr (eq_of_beq (endsTerm_iff.mpr hkind))
  | atom => exact absurd rfl (ne_atom_of_separator? hkind)

/-- A bar beside a separator or at one of the ends makes no difference. -/
theorem termTexts_bar {front back : List Char} (h : BesideSeparator front back) :
    termTexts (front ++ '|' :: back) = termTexts (front ++ back) := by
  rcases h with h | h
  -- The bar is at the front or behind a separator.
  · rcases front.eq_nil_or_concat with rfl | ⟨front, c, rfl⟩
    · exact termTexts_bar_cons back
    · rw [List.concat_eq_append, List.append_assoc, List.append_assoc, List.singleton_append,
        List.singleton_append]
      rcases separator_cases (h c (by simp)) with hc | rfl
      · rw [termTexts_append_cons hc, termTexts_append_cons hc, termTexts_bar_cons]
      · exact termTexts_bar_bar front back
  -- It is at the end or in front of a separator.
  · cases back with
    | nil => rw [termTexts_concat_bar, List.append_nil]
    | cons c back =>
      rcases separator_cases (h c rfl) with hc | rfl
      · have hfront : front ++ '|' :: c :: back = (front ++ ['|']) ++ c :: back := by simp
        rw [hfront, termTexts_append_cons hc, termTexts_append_cons hc, termTexts_concat_bar]
      · exact termTexts_bar_bar front back

/-! ## Sets of terms -/

/-- The terms of a segment between two separators of groups. -/
private theorem mem_termTexts_iff {cs : List Char} {terms : List (List Char)} :
    terms ∈ termTexts cs ↔ ∃ segment ∈ Text.pieces endsGroup cs,
      (Text.pieces endsTerm segment).filter (!·.isEmpty) = terms := by
  rw [termTexts, List.mem_map]

/-- Where each segment has the pieces of the one in its place, the sets of terms are there, too. -/
private theorem termSets_subset {cs ds : List Char}
    (h : List.Forall₂ (fun segment segment' => ∀ piece,
      piece ∈ Text.pieces endsTerm segment ↔ piece ∈ Text.pieces endsTerm segment')
      (Text.pieces endsGroup cs) (Text.pieces endsGroup ds)) : termSets ds ⊆ termSets cs := by
  rintro _ ⟨_, hterms, rfl⟩
  obtain ⟨segment', hsegment', rfl⟩ := mem_termTexts_iff.mp hterms
  obtain ⟨segment, hsegment, hpieces⟩ := h.exists_of_mem_right hsegment'
  refine ⟨_, mem_termTexts_iff.mpr ⟨segment, hsegment, rfl⟩, ?_⟩
  simp only [List.mem_filter, hpieces]

/-- Rearranging a text keeps the sets of its terms. -/
theorem Rearranged.termSets_eq {cs ds : List Char} (h : Rearranged cs ds) :
    termSets cs = termSets ds := by
  induction h with
  | separator hs ht front back =>
    rw [termSets, termSets, termTexts_append_cons (endsGroup_iff.mp hs),
      termTexts_append_cons (endsGroup_iff.mp ht)]
  | @groups cs ds h =>
    have hterms : ∀ terms, terms ∈ termTexts cs ↔ terms ∈ termTexts ds := by
      simp only [mem_termTexts_iff, h, implies_true]
    simp only [termSets, hterms]
  | terms h =>
    exact (termSets_subset (h.flip.imp fun _ _ hpieces piece => (hpieces piece).symm)).antisymm
      (termSets_subset h)
  | bar h => rw [termSets, termSets, termTexts_bar h]
  | symm _ ih => exact ih.symm
  | trans _ _ ih ih' => exact ih.trans ih'

/-- What is so of all sets of terms is so of the terms of each group. -/
private theorem forall_mem_termSets {cs : List Char} {p : Set (List Char) → Prop} :
    (∀ group ∈ termSets cs, p group) ↔ ∀ terms ∈ termTexts cs, p {piece | piece ∈ terms} := by
  refine ⟨fun h terms hterms => h _ ⟨terms, hterms, rfl⟩, ?_⟩
  rintro h _ ⟨terms, hterms, rfl⟩
  exact h terms hterms

variable {atom : List Char → Except ReadFault Requirement} {facts : Facts} {cs ds : List Char}

/-- Which texts can be read depends on their sets of terms. -/
theorem readable_congr (h : termSets cs = termSets ds) : Readable atom cs ↔ Readable atom ds := by
  have hsets : ∀ cs, Readable atom cs ↔
      ∀ group ∈ termSets cs, ∀ piece ∈ group, ∃ t, termOf atom piece = .ok t := by
    intro cs
    rw [forall_mem_termSets]
    rfl
  rw [hsets, hsets, h]

/-- So does whether they hold. -/
theorem textHolds_congr (h : termSets cs = termSets ds) :
    textHolds atom facts cs = textHolds atom facts ds := by
  have hsets : ∀ cs, textHolds atom facts cs = true ↔
      ∀ group ∈ termSets cs, ∃ piece ∈ group, termHolds atom facts piece = true := by
    intro cs
    rw [forall_mem_termSets]
    simp [textHolds]
  rw [Bool.eq_iff_iff, hsets, hsets, h]

end VersionGate.Requirement

import VersionGate.Proofs.Requirement.Evaluation

/-!
# What a text means

Whether a text can be read, and what checking it then gives, depends on its terms group by group:
the text can be read when each term can, and it holds when each group has a term that holds. For
this the facts have to be known that the atoms ask for.

## Key results

- `exists_readWith_iff`: which texts can be read
- `evalRead_of_readable`: what checking such a text gives
-/

namespace VersionGate.Requirement

section

variable (atom : List Char → Except ReadFault Requirement) (facts : Facts)

/-- A text each of whose terms can be read. -/
def Readable (cs : List Char) : Prop :=
  ∀ terms ∈ termTexts cs, ∀ piece ∈ terms, ∃ t, termOf atom piece = .ok t

/-- Whether a piece can be read as a term that holds. -/
def termHolds (piece : List Char) : Bool :=
  ((termOf atom piece).toOption.bind fun t => (eval facts t).toOption) == some true

/-- Whether each group of a text has a term that holds. -/
def textHolds (cs : List Char) : Bool := (termTexts cs).all (·.any (termHolds atom facts))

/-- The groups of terms of a text. -/
def groupsOf (cs : List Char) : Except ReadFault (List (List Requirement)) :=
  (termTexts cs).mapM (List.mapM (termOf atom))

end

variable {atom : List Char → Except ReadFault Requirement} {facts : Facts}

/-- A text that is not empty is read by its groups. -/
theorem readWith_eq_map_groupsOf {s : String} (hne : s ≠ "") :
    readWith atom (some s) = (groupsOf atom s.toList).map ofGroups := by
  rw [readWith_eq_reading atom hne, reading, groupsOf]
  cases (termTexts s.toList).mapM (List.mapM (termOf atom)) <;> rfl

/-- A text is readable exactly if its groups are read. -/
theorem readable_iff {cs : List Char} :
    Readable atom cs ↔ ∃ groups, groupsOf atom cs = .ok groups := by
  simp only [Readable, groupsOf, List.exists_mapM_eq_ok_iff]

/-- A text can be read when there is something of it and each of its terms can be read. -/
theorem exists_readWith_iff {s : String} :
    (∃ r, readWith atom (some s) = .ok r) ↔ s ≠ "" ∧ Readable atom s.toList := by
  by_cases hne : s = ""
  · simp [readWith, hne]
  · rw [readWith_eq_map_groupsOf hne, readable_iff]
    cases groupsOf atom s.toList <;> simp [Except.map, hne]

/-! ## Checking -/

/-- A term holds if that is the answer to it. -/
theorem termHolds_of_eval {piece : List Char} {t : Requirement} {b : Bool}
    (ht : termOf atom piece = .ok t) (hb : eval facts t = .ok b) :
    termHolds atom facts piece = b := by
  cases b <;> simp [termHolds, ht, hb, Except.toOption]

/-- What is no term does not hold. -/
theorem termHolds_of_not_exists {piece : List Char} (h : ¬∃ t, termOf atom piece = .ok t) :
    termHolds atom facts piece = false := by
  cases ht : termOf atom piece with
  | ok t => exact absurd ⟨t, ht⟩ h
  | error fault => simp [termHolds, ht, Except.toOption]

/-- Some terms, one of which is to hold. -/
private theorem evalAny_of_termOf (hterms : ∀ piece t, termOf atom piece = .ok t →
    ∃ b, eval facts t = .ok b) {pieces : List (List Char)} {terms : List Requirement}
    (h : List.Forall₂ (fun piece t => termOf atom piece = .ok t) pieces terms) :
    evalAny facts terms = .ok (pieces.any (termHolds atom facts)) := by
  induction h with
  | nil => rfl
  | @cons piece t pieces terms ht _ ih =>
    obtain ⟨b, hb⟩ := hterms piece t ht
    rw [evalAny, hb, List.any_cons, termHolds_of_eval ht hb]
    -- A term that holds decides, and otherwise the terms behind it do.
    cases b with
    | true => rfl
    | false => exact ih

/-- Some groups, all of which are to hold. -/
private theorem evalAll_of_termOf (hterms : ∀ piece t, termOf atom piece = .ok t →
    ∃ b, eval facts t = .ok b) {rows : List (List (List Char))}
    {groups : List (List Requirement)}
    (h : List.Forall₂ (List.Forall₂ fun piece t => termOf atom piece = .ok t) rows groups) :
    evalAll facts (groups.map .anyOf) = .ok (rows.all (·.any (termHolds atom facts))) := by
  induction h with
  | nil => rfl
  | @cons pieces terms rows groups hgroup _ ih =>
    rw [List.map_cons, evalAll, eval, evalAny_of_termOf hterms hgroup, List.all_cons]
    cases pieces.any (termHolds atom facts) with
    | true => exact ih
    | false => rfl

/-- A term has an answer when its atom has one. -/
private theorem exists_eval_of_termOf (hatom : ∀ cs r, atom cs = .ok r → ∃ b, eval facts r = .ok b)
    {piece : List Char} {t : Requirement} (h : termOf atom piece = .ok t) :
    ∃ b, eval facts t = .ok b := by
  have hliteral : IsLiteral (fun r => ∃ b, eval facts r = .ok b) t := isLiteral_of_termOf hatom h
  exact exists_eval_of_isLiteral (fun _ hr => hr) hliteral

/-- Checking a text that can be read gives whether each of its groups has a term that holds. -/
theorem evalRead_of_readable (hatom : ∀ cs r, atom cs = .ok r → ∃ b, eval facts r = .ok b)
    {s : String} (hne : s ≠ "") (h : Readable atom s.toList) :
    evalRead facts (readWith atom (some s)) = .ok (textHolds atom facts s.toList) := by
  obtain ⟨r, hr⟩ := exists_readWith_iff.mpr ⟨hne, h⟩
  obtain ⟨s', groups, hs, hgroups, rfl⟩ := exists_groups_of_readWith hr
  obtain rfl := Option.some.inj hs
  rw [hr, evalRead, eval,
    evalAll_of_termOf (fun _ _ => exists_eval_of_termOf hatom) hgroups]
  rfl

end VersionGate.Requirement

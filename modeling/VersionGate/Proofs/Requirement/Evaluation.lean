import VersionGate.Requirement.Eval
import VersionGate.Proofs.Requirement.Grammar

/-!
# Requirements that were read have an answer

A text gives all of some groups, each any of some terms, and a term is what an atom stands for or
its negation (`reading_eq_ok_iff`, `isFlat_of_readWith`). Such a requirement has an answer as soon
as its atoms have one: nothing else in it can fail.

## Key results

- `isFlat_of_readWith`: the requirements that texts stand for
- `exists_eval_of_isFlat`: they have an answer when their atoms do
- `exists_check_of_read`, `check_of_read_error`: checking a text fails just when reading it does
-/

namespace VersionGate

/-- A version that can be made of three numbers, the last two of which may be missing. -/
def Version.IsConstructible (v : Version) : Prop :=
  ∃ major minor revision, ofParts major minor revision = .ok v

private theorem Version.isConstructible (v : Version) : v.IsConstructible := by
  cases v with
  | major a => exact ⟨a, none, none, by simp [ofParts]⟩
  | minor a b => exact ⟨a, some b, none, by simp [ofParts]⟩
  | full a b c => exact ⟨a, some b, some c, by simp [ofParts]⟩

namespace Requirement

/-- What a text stands for: a term for each of its pieces, group by group. -/
theorem reading_eq_ok_iff {ε : Type} {atom : List Char → Except ε Requirement} {cs : List Char}
    {r : Requirement} :
    reading atom cs = .ok r ↔
      ∃ groups, List.Forall₂ (List.Forall₂ fun piece t => termOf atom piece = .ok t)
        (termTexts cs) groups ∧ r = .allOf (groups.map .anyOf) := by
  have hgroups : ∀ groups, (termTexts cs).mapM (List.mapM (termOf atom)) = .ok groups ↔
      List.Forall₂ (List.Forall₂ fun piece t => termOf atom piece = .ok t) (termTexts cs)
        groups := by
    intro groups
    rw [List.mapM_eq_ok_iff]
    simp only [List.mapM_eq_ok_iff]
  simp only [← hgroups, reading]
  cases (termTexts cs).mapM (List.mapM (termOf atom)) with
  | error fault => simp [bind, Except.bind]
  | ok groups => simp [bind, Except.bind, eq_comm]

/-- The groups of terms that a text is read as. -/
theorem exists_groups_of_readWith {atom : List Char → Except ReadFault Requirement}
    {text : Option String} {r : Requirement} (h : readWith atom text = .ok r) :
    ∃ s groups, text = some s ∧
      List.Forall₂ (List.Forall₂ fun piece t => termOf atom piece = .ok t) (termTexts s.toList)
        groups ∧ r = .allOf (groups.map .anyOf) := by
  cases text with
  | none => exact nomatch h
  | some s =>
    by_cases hne : s = ""
    · simp [readWith, hne] at h
    · rw [readWith_eq_reading atom hne, reading_eq_ok_iff] at h
      obtain ⟨groups, hgroups, hr⟩ := h
      exact ⟨s, groups, rfl, hgroups, hr⟩

section

variable {isAtom : Requirement → Prop}

/-- An atom of some kind, or such an atom with an exclamation mark in front. -/
def IsLiteral (isAtom : Requirement → Prop) (r : Requirement) : Prop :=
  isAtom r ∨ ∃ operand, isAtom operand ∧ r = .negation operand

/-- All of at least one group, each any of some atoms and negations of atoms. -/
def IsFlat (isAtom : Requirement → Prop) (r : Requirement) : Prop :=
  ∃ groups : List (List Requirement), groups ≠ [] ∧ r = .allOf (groups.map .anyOf) ∧
    ∀ group ∈ groups, ∀ t ∈ group, IsLiteral isAtom t

/-- A term that was read is an atom or the negation of one. -/
theorem isLiteral_of_termOf {ε : Type} {atom : List Char → Except ε Requirement}
    (hatom : ∀ cs r, atom cs = .ok r → isAtom r) {piece : List Char} {t : Requirement}
    (h : termOf atom piece = .ok t) : IsLiteral isAtom t := by
  rw [termOf] at h
  cases hread : atom (atomText piece) with
  | error fault => simp [hread, Except.map] at h
  | ok r =>
    have hr := hatom _ r hread
    simp only [hread, Except.map, Except.ok.injEq] at h
    rw [← h]
    by_cases hneg : isNegated piece
    · rw [if_pos hneg]
      exact .inr ⟨r, hr, rfl⟩
    · rw [if_neg hneg]
      exact .inl hr

/-- A text that is read has at least one group, and in its groups nothing but atoms and negations of
atoms. -/
theorem isFlat_of_readWith {atom : List Char → Except ReadFault Requirement}
    (hatom : ∀ cs r, atom cs = .ok r → isAtom r) {text : Option String} {r : Requirement}
    (h : readWith atom text = .ok r) : IsFlat isAtom r := by
  obtain ⟨s, groups, -, hgroups, rfl⟩ := exists_groups_of_readWith h
  refine ⟨groups, ?_, rfl, fun group hgroup t ht => ?_⟩
  · rintro rfl
    have hnil : termTexts s.toList = [] := List.forall₂_nil_right_iff.mp hgroups
    rw [termTexts, List.map_eq_nil_iff] at hnil
    exact Text.pieces_ne_nil _ _ hnil
  · obtain ⟨pieces, -, hpieces⟩ := List.Forall₂.exists_of_mem_right hgroups hgroup
    obtain ⟨piece, -, hpiece⟩ := List.Forall₂.exists_of_mem_right hpieces ht
    exact isLiteral_of_termOf hatom hpiece

/-! ## Evaluating -/

/-- A mod is installed when its name agrees with an installed one up to case. -/
theorem installed_iff {mods : List String} {name : String} :
    Facts.installed mods name = true ↔ Text.lower name ∈ mods.map Text.lower := by
  rw [Facts.installed, List.contains_iff_mem]

/-- Groups have an answer when each of them has one. -/
private theorem exists_evalAll {facts : Facts} {rs : List Requirement}
    (h : ∀ r ∈ rs, ∃ b, eval facts r = .ok b) : ∃ b, evalAll facts rs = .ok b := by
  induction rs with
  | nil => exact ⟨true, rfl⟩
  | cons r rs ih =>
    obtain ⟨b, hb⟩ := h r (by simp)
    rw [evalAll, hb]
    -- A group that does not hold decides, and those behind it are not looked at.
    cases b with
    | false => exact ⟨false, rfl⟩
    | true => exact ih fun s hs => h s (by simp [hs])

/-- Terms have an answer when each of them has one. -/
private theorem exists_evalAny {facts : Facts} {rs : List Requirement}
    (h : ∀ r ∈ rs, ∃ b, eval facts r = .ok b) : ∃ b, evalAny facts rs = .ok b := by
  induction rs with
  | nil => exact ⟨false, rfl⟩
  | cons r rs ih =>
    obtain ⟨b, hb⟩ := h r (by simp)
    rw [evalAny, hb]
    cases b with
    | true => exact ⟨true, rfl⟩
    | false => exact ih fun s hs => h s (by simp [hs])

/-- A literal has an answer when its atom has one. -/
theorem exists_eval_of_isLiteral {facts : Facts}
    (hatom : ∀ r, isAtom r → ∃ b, eval facts r = .ok b) {r : Requirement}
    (h : IsLiteral isAtom r) : ∃ b, eval facts r = .ok b := by
  obtain h | ⟨operand, h, rfl⟩ := h
  · exact hatom r h
  · obtain ⟨b, hb⟩ := hatom operand h
    exact ⟨!b, by rw [eval, hb]; rfl⟩

/-- A requirement as texts stand for it has an answer when its atoms have one. -/
theorem exists_eval_of_isFlat {facts : Facts}
    (hatom : ∀ r, isAtom r → ∃ b, eval facts r = .ok b) {r : Requirement} (h : IsFlat isAtom r) :
    ∃ b, eval facts r = .ok b := by
  obtain ⟨groups, -, rfl, hterms⟩ := h
  rw [eval]
  refine exists_evalAll fun r hr => ?_
  obtain ⟨group, hgroup, rfl⟩ := List.mem_map.mp hr
  rw [eval]
  exact exists_evalAny fun t ht => exists_eval_of_isLiteral hatom (hterms group hgroup t ht)

end

/-! ## Version requirements -/

/-- A comparison of the running version with a version that can be made of numbers. -/
def IsVersionTerm (r : Requirement) : Prop := ∃ t, r = .version t ∧ t.bound.IsConstructible

/-- What is read as an atom on the version is a term on it. -/
theorem isVersionTerm_of_versionAtom {cs : List Char} {r : Requirement}
    (h : versionAtom cs = .ok r) : IsVersionTerm r := by
  rw [versionAtom] at h
  cases hread : Term.readChars cs with
  | error fault => simp [hread, Except.map] at h
  | ok t =>
    simp only [hread, Except.map, Except.ok.injEq] at h
    exact ⟨t, h.symm, t.bound.isConstructible⟩

/-- A requirement on the version that was read is flat. -/
theorem isFlat_of_read {text : Option String} {r : Requirement} (h : read text = .ok r) :
    IsFlat IsVersionTerm r :=
  isFlat_of_readWith (fun _ _ => isVersionTerm_of_versionAtom) h

/-- A term on the version has an answer for every version. -/
theorem exists_eval_of_isVersionTerm (running : Version) (mods : Option (List String))
    {r : Requirement} (h : IsVersionTerm r) : ∃ b, eval ⟨some running, mods⟩ r = .ok b := by
  obtain ⟨t, rfl, -⟩ := h
  exact ⟨t.holds running, by rw [eval]⟩

/-- A version requirement that was read has an answer when the running version is known. -/
theorem exists_eval_of_read {text : Option String} {r : Requirement} (h : read text = .ok r)
    (running : Version) : ∃ b, eval ⟨some running, none⟩ r = .ok b :=
  exists_eval_of_isFlat (fun _ => exists_eval_of_isVersionTerm running none) (isFlat_of_read h)

/-- Checking a text that can be read gives an answer. -/
theorem exists_check_of_read {text : Option String} {r : Requirement} (h : read text = .ok r)
    (running : Version) : ∃ b, check running text = .ok b := by
  obtain ⟨b, hb⟩ := exists_eval_of_read h running
  exact ⟨b, by rw [check, h, evalRead, hb]; rfl⟩

/-- Checking a text that cannot be read fails as reading it does. -/
theorem check_of_read_error {text : Option String} {fault : ReadFault}
    (h : read text = .error fault) (running : Option Version) :
    check running text = .error (.read fault) := by
  rw [check, h, evalRead]

end Requirement

end VersionGate

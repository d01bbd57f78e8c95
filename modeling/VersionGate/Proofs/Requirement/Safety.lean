import VersionGate.Proofs.Requirement.Evaluation

/-!
# Reading first makes evaluating safe

All that can go wrong with a text goes wrong when it is read. What comes of reading has nothing in
it but atoms of the one kind that the reader knows, so it has an answer whenever the fact is known
that these atoms ask for: for every running version, and for every list of mods. Where the fact is
not known, the answer depends on whether an atom is reached at all, and a group without terms in
front of all others is the only thing that keeps an evaluation from its first atom.

## Key results

- `AnswersIfRead`: a text has an answer exactly if it can be read
- `eval_of_fails`: evaluating without the fact that the atoms ask for
- `exists_termTexts_eq_cons`: whether there is a term in front of the first separator of groups
- `read_then_eval_safe`: both readers and both ways of checking a text
-/

namespace VersionGate.Requirement

/-! ## The names of mods -/

/-- A mod with a name of at least one character, all of them ASCII letters, digits or one of
`_ . - /`. -/
def IsModReference (r : Requirement) : Prop :=
  ∃ name, r = .mod name ∧ name ≠ "" ∧ ∀ c ∈ name.toList, isModChar c = true

/-- What is read as the name of a mod refers to it. -/
theorem isModReference_of_modAtom {cs : List Char} {r : Requirement} (h : modAtom cs = .ok r) :
    IsModReference r := by
  rw [modAtom] at h
  split at h
  · next hname =>
    simp only [Bool.and_eq_true, Bool.not_eq_true', List.all_eq_true] at hname
    refine ⟨String.ofList cs, (Except.ok.inj h).symm, ?_, ?_⟩
    · intro hempty
      have hcs : cs = [] := by simpa using hempty
      simp [hcs] at hname
    · rw [String.toList_ofList]
      exact hname.2
  · contradiction

/-- A reference to a mod has an answer if the installed ones are known. -/
theorem exists_eval_of_isModReference (running : Option Version) (mods : List String)
    {r : Requirement} (h : IsModReference r) : ∃ b, eval ⟨running, some mods⟩ r = .ok b := by
  obtain ⟨name, rfl, -⟩ := h
  exact ⟨Facts.installed mods name, by rw [eval]⟩

/-- A requirement on mods that was read is flat. -/
theorem isFlat_of_readNeeds {text : Option String} {r : Requirement}
    (h : readNeeds text = .ok r) : IsFlat IsModReference r :=
  isFlat_of_readWith (fun _ _ => isModReference_of_modAtom) h

/-- A requirement on mods that was read has an answer when the installed mods are known. -/
theorem exists_eval_of_readNeeds {text : Option String} {r : Requirement}
    (h : readNeeds text = .ok r) (mods : List String) : ∃ b, eval ⟨none, some mods⟩ r = .ok b :=
  exists_eval_of_isFlat (fun _ => exists_eval_of_isModReference none mods) (isFlat_of_readNeeds h)

/-! ## Evaluating with the fact -/

/-- Checking gives an answer exactly if reading gives a requirement, and otherwise the fault of
reading; evaluating the requirement adds no fault of its own. -/
structure AnswersIfRead (reading : Except ReadFault Requirement)
    (answer : Except CheckFault Bool) : Prop where
  answered : (∃ b, answer = .ok b) ↔ ∃ r, reading = .ok r
  refused : ∀ fault, answer = .error (.read fault) ↔ reading = .error fault
  safe : ∀ fault, answer ≠ .error (.eval fault)

/-- If all that is read has an answer, that is the answer for the text. -/
theorem answersIfRead_evalRead {facts : Facts} {reading : Except ReadFault Requirement}
    (h : ∀ r, reading = .ok r → ∃ b, eval facts r = .ok b) :
    AnswersIfRead reading (evalRead facts reading) := by
  cases reading with
  | error fault =>
    rw [evalRead]
    exact ⟨by simp, by simp, by simp⟩
  | ok r =>
    obtain ⟨b, hb⟩ := h r rfl
    rw [evalRead, hb]
    exact ⟨by simp [Except.mapError], by simp [Except.mapError], by simp [Except.mapError]⟩

/-! ## Evaluating without the fact -/

section

variable {isAtom : Requirement → Prop} {facts : Facts} {fault : EvalFault}

/-- A literal fails as its atom does. -/
private theorem eval_literal_of_fails (hatom : ∀ r, isAtom r → eval facts r = .error fault)
    {r : Requirement} (h : IsLiteral isAtom r) : eval facts r = .error fault := by
  obtain h | ⟨operand, h, rfl⟩ := h
  · exact hatom r h
  · rw [eval, hatom operand h]
    rfl

/-- Where no atom can be evaluated, the first group decides: without terms it does not hold, and
otherwise its first term ends the evaluation. -/
theorem eval_of_fails (hatom : ∀ r, isAtom r → eval facts r = .error fault)
    {group : List Requirement} (hgroup : ∀ t ∈ group, IsLiteral isAtom t)
    (groups : List (List Requirement)) :
    eval facts (.allOf ((group :: groups).map .anyOf)) =
      if group = [] then .ok false else .error fault := by
  rw [eval, List.map_cons, evalAll, eval]
  cases group with
  | nil => rw [evalAny, if_pos rfl]
  | cons t ts =>
    have ht := eval_literal_of_fails hatom (hgroup t (by simp))
    rw [evalAny, ht, if_neg (by simp)]

end

/-- What stands in front of the first separator of groups, or all if there is none. -/
def firstSegment (cs : List Char) : List Char := cs.takeWhile (!endsGroup ·)

/-- The first group has no terms when there are only bars in front of the first separator of
groups. -/
theorem exists_termTexts_eq_cons (cs : List Char) :
    ∃ terms rest, termTexts cs = terms :: rest ∧
      (terms = [] ↔ (firstSegment cs).all endsTerm = true) := by
  rw [termTexts, Text.pieces_eq_takeWhile, List.map_cons]
  exact ⟨_, _, rfl, Text.filter_pieces_eq_nil_iff⟩

/-- Without the fact that its atoms ask for, a text that is read does not hold if there are only
bars in front of its first separator of groups, and otherwise it cannot be evaluated. -/
private theorem evalRead_of_fails {isAtom : Requirement → Prop} {facts : Facts} {fault : EvalFault}
    {atom : List Char → Except ReadFault Requirement} (hatom : ∀ cs r, atom cs = .ok r → isAtom r)
    (hfails : ∀ r, isAtom r → eval facts r = .error fault) {s : String} {r : Requirement}
    (h : readWith atom (some s) = .ok r) :
    evalRead facts (readWith atom (some s)) =
      if (firstSegment s.toList).all endsTerm then .ok false else .error (.eval fault) := by
  obtain ⟨s, groups, hs, hgroups, rfl⟩ := exists_groups_of_readWith h
  obtain rfl := Option.some.inj hs
  obtain ⟨terms, rest, hterms, hempty⟩ := exists_termTexts_eq_cons s.toList
  rw [hterms] at hgroups
  obtain ⟨group, groups, hgroup, -, rfl⟩ := List.forall₂_cons_left_iff.mp hgroups
  have hliterals : ∀ t ∈ group, IsLiteral isAtom t := by
    intro t ht
    obtain ⟨piece, -, hpiece⟩ := List.Forall₂.exists_of_mem_right hgroup ht
    exact isLiteral_of_termOf hatom hpiece
  -- The first group has a term for each of its pieces.
  have hnil : group = [] ↔ (firstSegment s.toList).all endsTerm = true := by
    rw [← hempty, ← List.length_eq_zero_iff, ← List.length_eq_zero_iff, hgroup.length_eq]
  rw [h, evalRead, eval_of_fails hfails hliterals]
  by_cases hbars : (firstSegment s.toList).all endsTerm = true
  · rw [if_pos hbars, if_pos (hnil.mpr hbars)]
    rfl
  · rw [if_neg hbars, if_neg (mt hnil.mp hbars)]
    rfl

/-- A text that is read is all of at least one group, each any of atoms and negations of atoms, with
the atoms that the reader knows. So checking it for a running version or for a list of mods depends
on the text alone in whether it gives an answer, and never fails in evaluating. Without the version,
or without the mods, there is an answer only if the first group has no terms. -/
theorem read_then_eval_safe (text : Option String) :
    (∀ r, read text = .ok r → IsFlat IsVersionTerm r) ∧
    (∀ r, readNeeds text = .ok r → IsFlat IsModReference r) ∧
    (∀ running, AnswersIfRead (read text) (check (some running) text)) ∧
    (∀ mods, AnswersIfRead (readNeeds text) (checkNeeds (some mods) text)) ∧
    ∀ s, text = some s →
      ((∃ r, read text = .ok r) → check none text =
        if (firstSegment s.toList).all endsTerm then .ok false else .error (.eval .noVersion)) ∧
      ((∃ r, readNeeds text = .ok r) → checkNeeds none text =
        if (firstSegment s.toList).all endsTerm then .ok false else .error (.eval .noMods)) := by
  have hmods : ∀ r, readNeeds text = .ok r → IsFlat IsModReference r := fun r =>
    isFlat_of_readWith fun _ _ => isModReference_of_modAtom
  refine ⟨fun r => isFlat_of_read, hmods, fun running => ?_, fun mods => ?_, ?_⟩
  · exact answersIfRead_evalRead fun r hr => exists_eval_of_read hr running
  · exact answersIfRead_evalRead fun r hr =>
      exists_eval_of_isFlat (fun _ => exists_eval_of_isModReference none mods) (hmods r hr)
  · -- Without the fact every atom fails in the same way, so it only matters whether one is come to.
    rintro s rfl
    refine ⟨fun ⟨r, hr⟩ => ?_, fun ⟨r, hr⟩ => ?_⟩
    · have hfails : ∀ r, IsVersionTerm r → eval ⟨none, none⟩ r = .error .noVersion := by
        rintro r ⟨t, rfl, -⟩
        rw [eval]
      exact evalRead_of_fails (fun _ _ => isVersionTerm_of_versionAtom) hfails hr
    · have hfails : ∀ r, IsModReference r → eval ⟨none, none⟩ r = .error .noMods := by
        rintro r ⟨name, rfl, -⟩
        rw [eval]
      exact evalRead_of_fails (fun _ _ => isModReference_of_modAtom) hfails hr

/-- With a bar alone in front of its comma, a text does not hold for an unknown version. It does ask
for the version where a group with a term comes first. -/
theorem read_then_eval_safe_bar_first :
    (∃ r, read (some "|,!1.8") = .ok r) ∧ check none (some "|,!1.8") = .ok false ∧
      (∃ r, read (some "!1.8,|") = .ok r) ∧
      check none (some "!1.8,|") = .error (.eval .noVersion) ∧
      ∃ b, check (some (.full 1 8 1)) (some "!1.8,|") = .ok b := by
  have hbar : ∃ r, read (some "|,!1.8") = .ok r :=
    ⟨_, (readWith_eq_reading versionAtom (by decide)).trans rfl⟩
  have hterm : ∃ r, read (some "!1.8,|") = .ok r :=
    ⟨_, (readWith_eq_reading versionAtom (by decide)).trans rfl⟩
  obtain ⟨-, -, -, -, hfirst⟩ := read_then_eval_safe (some "|,!1.8")
  obtain ⟨-, -, hanswers, -, hsecond⟩ := read_then_eval_safe (some "!1.8,|")
  exact ⟨hbar, (hfirst _ rfl).1 hbar, hterm, (hsecond _ rfl).1 hterm,
    (hanswers _).answered.mpr hterm⟩

end VersionGate.Requirement

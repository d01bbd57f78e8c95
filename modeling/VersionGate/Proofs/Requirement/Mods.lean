import VersionGate.Proofs.LowerCase
import VersionGate.Proofs.Requirement.Meaning
import VersionGate.Proofs.Requirement.Safety

/-!
# Which mods a requirement tells apart

A requirement on mods sees of the installed ones which lower-case names there are, and nothing else:
not their order, their number or their spelling. The case of ASCII letters in the requirement itself
does not matter either, as it is in no separator and no exclamation mark. With more mods installed,
a requirement without negations goes on holding, and one of nothing but negations goes on not
holding.

## Key results

- `termHolds_of_modAtom`: what a term says of the installed mods
- `textHolds_mono`: more terms that hold make no text fail
- `textHolds_map_toLower`, `readable_map_toLower`: the case of letters in a text does not matter
- `checkNeeds_sees_lower_case`: what the answer depends on, and how
-/

namespace VersionGate.Requirement

/-! ## Terms on mods -/

/-- A name of a mod that is read is that name. -/
private theorem modAtom_eq {cs : List Char} {r : Requirement} (h : modAtom cs = .ok r) :
    r = .mod (String.ofList cs) := by
  rw [modAtom] at h
  split at h
  · exact (Except.ok.inj h).symm
  · contradiction

/-- A term on a mod holds if the mod is installed, or if it is not, with an exclamation mark. -/
theorem termHolds_of_modAtom {piece : List Char} {t : Requirement}
    (h : termOf modAtom piece = .ok t) (mods : List String) :
    termHolds modAtom ⟨none, some mods⟩ piece =
      (isNegated piece ^^ Facts.installed mods (String.ofList (atomText piece))) := by
  refine termHolds_of_eval h ?_
  rw [termOf] at h
  cases hatom : modAtom (atomText piece) with
  | error fault => simp [hatom, Except.map] at h
  | ok r =>
    obtain rfl := modAtom_eq hatom
    simp only [hatom, Except.map, Except.ok.injEq] at h
    subst h
    cases isNegated piece <;> simp [eval, Except.map]

/-- A text holds as long as its terms do. -/
theorem textHolds_mono {atom : List Char → Except ReadFault Requirement} {facts facts' : Facts}
    {cs : List Char} (h : ∀ piece ∈ (termTexts cs).flatten,
      termHolds atom facts piece = true → termHolds atom facts' piece = true)
    (hholds : textHolds atom facts cs = true) : textHolds atom facts' cs = true := by
  simp only [textHolds, List.all_eq_true, List.any_eq_true] at hholds ⊢
  intro terms hterms
  obtain ⟨piece, hpiece, hterm⟩ := hholds terms hterms
  exact ⟨piece, hpiece, h piece (List.mem_flatten.mpr ⟨terms, hterms, hpiece⟩) hterm⟩

/-! ## The case of letters -/

/-- The terms of a text in small letters are its terms in small letters. -/
private theorem termTexts_map_toLower (cs : List Char) :
    termTexts (cs.map Char.toLower) = (termTexts cs).map (List.map (List.map Char.toLower)) := by
  have hgroup : ∀ c : Char, endsGroup c.toLower = endsGroup c :=
    Text.apply_toLower (f := endsGroup) (by decide +kernel)
  have hterm : ∀ c : Char, endsTerm c.toLower = endsTerm c :=
    Text.apply_toLower (f := endsTerm) (by decide +kernel)
  have hsegment : ∀ segment : List Char,
      (Text.pieces endsTerm (segment.map Char.toLower)).filter (!·.isEmpty) =
        ((Text.pieces endsTerm segment).filter (!·.isEmpty)).map (List.map Char.toLower) := by
    intro segment
    rw [Text.pieces_map hterm, List.filter_map]
    congr 2
    funext piece
    simp
  rw [termTexts, termTexts, Text.pieces_map hgroup, List.map_map, List.map_map]
  exact List.map_congr_left fun segment _ => hsegment segment

/-- The exclamation mark is no letter. -/
private theorem isNegated_map_toLower (piece : List Char) :
    isNegated (piece.map Char.toLower) = isNegated piece := by
  cases piece with
  | nil => rfl
  | cons c cs => exact Text.apply_toLower (f := fun c => some c == some '!') (by decide +kernel) c

/-- The atom of a term in small letters is its atom in small letters. -/
private theorem atomText_map_toLower (piece : List Char) :
    atomText (piece.map Char.toLower) = (atomText piece).map Char.toLower := by
  rw [atomText, atomText, isNegated_map_toLower]
  split <;> simp

/-- A name of a mod has a character, and nothing but those of names. -/
private theorem exists_modAtom_iff {cs : List Char} :
    (∃ r, modAtom cs = .ok r) ↔ cs ≠ [] ∧ ∀ c ∈ cs, isModChar c = true := by
  have hname : (!cs.isEmpty && cs.all isModChar) = true ↔
      cs ≠ [] ∧ ∀ c ∈ cs, isModChar c = true := by
    simp
  rw [← hname, modAtom]
  by_cases h : (!cs.isEmpty && cs.all isModChar) = true <;> simp [h]

/-- A piece is a term exactly if its atom is read. -/
private theorem exists_termOf_iff {atom : List Char → Except ReadFault Requirement}
    {piece : List Char} :
    (∃ t, termOf atom piece = .ok t) ↔ ∃ r, atom (atomText piece) = .ok r := by
  rw [termOf]
  cases atom (atomText piece) <;> simp [Except.map]

/-- Names of mods are read in either case. -/
private theorem exists_termOf_map_toLower {piece : List Char} :
    (∃ t, termOf modAtom (piece.map Char.toLower) = .ok t) ↔ ∃ t, termOf modAtom piece = .ok t := by
  have hchar : ∀ c : Char, isModChar c.toLower = isModChar c :=
    Text.apply_toLower (f := isModChar) (by decide +kernel)
  rw [exists_termOf_iff, exists_termOf_iff, exists_modAtom_iff, exists_modAtom_iff,
    atomText_map_toLower, List.forall_mem_map]
  simp only [hchar, ne_eq, List.map_eq_nil_iff]

/-- A text is as readable in small letters. -/
theorem readable_map_toLower {cs : List Char} :
    Readable modAtom (cs.map Char.toLower) ↔ Readable modAtom cs := by
  simp only [Readable, termTexts_map_toLower, List.forall_mem_map, exists_termOf_map_toLower]

/-- A mod is installed under its name in either case. -/
private theorem installed_map_toLower (mods : List String) (name : List Char) :
    Facts.installed mods (String.ofList (name.map Char.toLower)) =
      Facts.installed mods (String.ofList name) := by
  rw [Facts.installed, Facts.installed, Text.lower_congr (Text.sameUpToCase_map_toLower name)]

/-- A term holds as well in small letters. -/
private theorem termHolds_map_toLower (mods : List String) (piece : List Char) :
    termHolds modAtom ⟨none, some mods⟩ (piece.map Char.toLower) =
      termHolds modAtom ⟨none, some mods⟩ piece := by
  by_cases h : ∃ t, termOf modAtom piece = .ok t
  · obtain ⟨t', ht'⟩ := exists_termOf_map_toLower.mpr h
    obtain ⟨t, ht⟩ := h
    rw [termHolds_of_modAtom ht', termHolds_of_modAtom ht, isNegated_map_toLower,
      atomText_map_toLower, installed_map_toLower]
  · -- What is no term holds in neither spelling.
    rw [termHolds_of_not_exists h, termHolds_of_not_exists (mt exists_termOf_map_toLower.mp h)]

/-- A text holds as well in small letters. -/
theorem textHolds_map_toLower (mods : List String) (cs : List Char) :
    textHolds modAtom ⟨none, some mods⟩ (cs.map Char.toLower) =
      textHolds modAtom ⟨none, some mods⟩ cs := by
  simp only [textHolds, termTexts_map_toLower, List.all_map, List.any_map, Function.comp_def,
    termHolds_map_toLower]

/-! ## The installed mods -/

/-- A term without negation goes on holding when more names are installed, and a negated term when
fewer are. -/
private theorem termHolds_mono {A B : List String}
    (h : ∀ name ∈ A.map Text.lower, name ∈ B.map Text.lower) (piece : List Char) :
    (isNegated piece = false → termHolds modAtom ⟨none, some A⟩ piece = true →
      termHolds modAtom ⟨none, some B⟩ piece = true) ∧
    (isNegated piece = true → termHolds modAtom ⟨none, some B⟩ piece = true →
      termHolds modAtom ⟨none, some A⟩ piece = true) := by
  -- What is installed of the fewer names is so of the more, and a negation turns this round.
  have hinstalled : Facts.installed A (String.ofList (atomText piece)) = true →
      Facts.installed B (String.ofList (atomText piece)) = true := by
    rw [installed_iff, installed_iff]
    exact h _
  by_cases hread : ∃ t, termOf modAtom piece = .ok t
  · obtain ⟨t, ht⟩ := hread
    rw [termHolds_of_modAtom ht, termHolds_of_modAtom ht]
    constructor
    · intro hneg
      simpa [hneg] using hinstalled
    · intro hneg
      simpa [hneg] using mt hinstalled
  · simp [termHolds_of_not_exists hread]

/-- Mods with the same lower-case names make the same terms hold. -/
private theorem termHolds_congr {A B : List String}
    (h : ∀ name, name ∈ A.map Text.lower ↔ name ∈ B.map Text.lower) (piece : List Char) :
    termHolds modAtom ⟨none, some A⟩ piece = termHolds modAtom ⟨none, some B⟩ piece := by
  have hAB := termHolds_mono (fun name => (h name).mp) piece
  have hBA := termHolds_mono (fun name => (h name).mpr) piece
  rw [Bool.eq_iff_iff]
  cases hneg : isNegated piece with
  | false => exact ⟨hAB.1 hneg, hBA.1 hneg⟩
  | true => exact ⟨hBA.2 hneg, hAB.2 hneg⟩

/-- Checking a text that can be read. -/
private theorem checkNeeds_of_read {e : String} {r : Requirement} (h : readNeeds (some e) = .ok r)
    (mods : List String) :
    checkNeeds (some mods) (some e) = .ok (textHolds modAtom ⟨none, some mods⟩ e.toList) := by
  obtain ⟨hne, hread⟩ := exists_readWith_iff.mp ⟨r, h⟩
  exact evalRead_of_readable
    (fun _ _ hr => exists_eval_of_isModReference none mods (isModReference_of_modAtom hr)) hne hread

/-- In another spelling, what can be read can be read. -/
private theorem exists_readNeeds_congr {e e' : String} {r : Requirement}
    (hee' : Text.SameUpToCase e e')
    (h : readNeeds (some e) = .ok r) : ∃ r', readNeeds (some e') = .ok r' := by
  obtain ⟨hne, hread⟩ := exists_readWith_iff.mp ⟨r, h⟩
  refine exists_readWith_iff.mpr ⟨?_, ?_⟩
  · rintro rfl
    have hnil : e.toList = [] := List.map_eq_nil_iff.mp hee'
    exact hne (String.toList_eq_nil_iff.mp hnil)
  · rwa [← readable_map_toLower, ← hee', readable_map_toLower]

/-- What is read as a requirement on mods depends on the installed ones by the set of their
lower-case names, and in the requirement and in the names the case of ASCII letters does not matter.
With more names, a requirement without negations goes on holding, and one of nothing but negations
goes on not holding. -/
theorem checkNeeds_sees_lower_case {e : String} {r : Requirement}
    (h : readNeeds (some e) = .ok r) :
    (∀ A B : List String, (∀ name, name ∈ A.map Text.lower ↔ name ∈ B.map Text.lower) →
      checkNeeds (some A) (some e) = checkNeeds (some B) (some e)) ∧
    (∀ (A A' : List String) (e' : String), List.Forall₂ Text.SameUpToCase A A' →
      Text.SameUpToCase e e' →
      checkNeeds (some A') (some e') = checkNeeds (some A) (some e)) ∧
    ∀ A B : List String, (∀ name ∈ A.map Text.lower, name ∈ B.map Text.lower) →
      ∃ a b, checkNeeds (some A) (some e) = .ok a ∧ checkNeeds (some B) (some e) = .ok b ∧
        ((∀ term ∈ (termTexts e.toList).flatten, isNegated term = false) → a = true → b = true) ∧
        ((∀ term ∈ (termTexts e.toList).flatten, isNegated term = true) → b = true → a = true) := by
  have hnames : ∀ A B : List String, (∀ name, name ∈ A.map Text.lower ↔ name ∈ B.map Text.lower) →
      checkNeeds (some A) (some e) = checkNeeds (some B) (some e) := by
    intro A B hAB
    have hterms := funext (termHolds_congr hAB)
    rw [checkNeeds_of_read h A, checkNeeds_of_read h B, textHolds, textHolds, hterms]
  refine ⟨hnames, ?_, ?_⟩
  · intro A A' e' hAA' hee'
    obtain ⟨r', h'⟩ := exists_readNeeds_congr hee' h
    have hlower : A.map Text.lower = A'.map Text.lower := by
      rw [← List.forall₂_eq_eq_eq, List.forall₂_map_left_iff, List.forall₂_map_right_iff]
      exact hAA'.imp fun _ _ => Text.lower_congr
    -- First in the names of the mods, then in the text.
    rw [hnames A A' fun name => by rw [hlower], checkNeeds_of_read h A', checkNeeds_of_read h' A',
      ← textHolds_map_toLower A' e.toList, ← textHolds_map_toLower A' e'.toList, hee']
  · intro A B hAB
    refine ⟨_, _, checkNeeds_of_read h A, checkNeeds_of_read h B, fun hpos => ?_, fun hneg => ?_⟩
    · exact textHolds_mono fun piece hpiece => (termHolds_mono hAB piece).1 (hpos piece hpiece)
    · exact textHolds_mono fun piece hpiece => (termHolds_mono hAB piece).2 (hneg piece hpiece)

/-- With one mod more and in other spellings, one of two mods is still installed. -/
theorem checkNeeds_sees_lower_case_one_more :
    readNeeds (some "ModA|ModB") = .ok (.allOf [.anyOf [.mod "ModA", .mod "ModB"]]) ∧
      (∀ name ∈ ["moda"].map Text.lower, name ∈ ["Deadly", "MODA"].map Text.lower) ∧
      checkNeeds (some ["moda"]) (some "ModA|ModB") = .ok true ∧
      checkNeeds (some ["Deadly", "MODA"]) (some "ModA|ModB") = .ok true ∧
      checkNeeds (some ["Deadly", "mOdA"]) (some "MODa|modb") = .ok true := by
  have hread : readNeeds (some "ModA|ModB") = .ok (.allOf [.anyOf [.mod "ModA", .mod "ModB"]]) :=
    (readWith_eq_reading modAtom (by decide)).trans rfl
  have hmore : ∀ name ∈ ["moda"].map Text.lower, name ∈ ["Deadly", "MODA"].map Text.lower := by
    decide +kernel
  have hone : checkNeeds (some ["moda"]) (some "ModA|ModB") = .ok true := by
    rw [checkNeeds_of_read hread]
    decide +kernel
  obtain ⟨-, hcase, hmono⟩ := checkNeeds_sees_lower_case hread
  obtain ⟨a, b, ha, hb, hpositive, -⟩ := hmono ["moda"] ["Deadly", "MODA"] hmore
  have htwo : checkNeeds (some ["Deadly", "MODA"]) (some "ModA|ModB") = .ok true := by
    rw [hb, hpositive (by decide) (Except.ok.inj (ha.symm.trans hone))]
  refine ⟨hread, hmore, hone, htwo, ?_⟩
  rw [← htwo]
  exact hcase _ _ _ (.cons rfl (.cons (by decide) .nil)) (by decide)

end VersionGate.Requirement

import VersionGate.Proofs.Requirement.Rearranged
import VersionGate.Proofs.Requirement.Safety

/-!
# The algebra of requirement texts

A comma or an ampersand between two texts is the conjunction of what they mean, and a bar between
two texts without such separators is the disjunction. The text as a whole fails as the first of the
two that cannot be read. Rearranging a text does not change what it means.

## Key results

- `groupsOf_append_cons`, `groupsOf_bar`: the groups of two texts with a separator between them
- `evalRead_join`: checking them together and one after the other
- `texts_form_algebra`: the algebra of version requirements and of requirements on mods
-/

namespace VersionGate.Requirement

section

variable {atom : List Char → Except ReadFault Requirement} {facts : Facts}

/-- Two texts with a separator of groups between them have the groups of the first and then those of
the second. -/
theorem groupsOf_append_cons {s : Char} (hs : separator? s = some .and) (cs ds : List Char) :
    groupsOf atom (cs ++ s :: ds) = do
      let groups ← groupsOf atom cs
      let groups' ← groupsOf atom ds
      return groups ++ groups' := by
  rw [groupsOf, termTexts_append_cons hs, List.mapM_append]
  rfl

/-- Two texts with a comma or an ampersand between them hold if both do. -/
private theorem textHolds_append_cons {s : Char} (hs : separator? s = some .and)
    (cs ds : List Char) :
    textHolds atom facts (cs ++ s :: ds) =
      (textHolds atom facts cs && textHolds atom facts ds) := by
  rw [textHolds, termTexts_append_cons hs, List.all_append]
  rfl

/-- With a bar between them, two texts without separators of groups are one group. -/
private theorem exists_termTexts_of_none {cs ds : List Char} (hcs : ∀ c ∈ cs, endsGroup c = false)
    (hds : ∀ c ∈ ds, endsGroup c = false) :
    ∃ terms terms', termTexts cs = [terms] ∧ termTexts ds = [terms'] ∧
      termTexts (cs ++ '|' :: ds) = [terms ++ terms'] := by
  obtain ⟨front, last, hlast, hbar⟩ := exists_termTexts_bar cs (s := '|') rfl
  have hone : ∀ {es}, (∀ c ∈ es, endsGroup c = false) →
      termTexts es = [(Text.pieces endsTerm es).filter (!·.isEmpty)] := by
    intro es hes
    rw [termTexts, Text.pieces_of_none hes, List.map_singleton]
  rw [hone hcs, ← List.nil_append [_], List.append_singleton_inj] at hlast
  obtain ⟨rfl, rfl⟩ := hlast
  exact ⟨_, _, hone hcs, hone hds, hbar (hone hds)⟩

/-- Two groups with a bar between them are one group. -/
theorem groupsOf_bar {cs ds : List Char} (hcs : ∀ c ∈ cs, endsGroup c = false)
    (hds : ∀ c ∈ ds, endsGroup c = false) :
    groupsOf atom (cs ++ '|' :: ds) = do
      let groups ← groupsOf atom cs
      let groups' ← groupsOf atom ds
      return [groups.flatten ++ groups'.flatten] := by
  obtain ⟨terms, terms', hterms, hterms', hbar⟩ := exists_termTexts_of_none hcs hds
  simp only [groupsOf, hterms, hterms', hbar, List.mapM_cons, List.mapM_nil, List.mapM_append]
  cases terms.mapM (termOf atom) with
  | error fault => rfl
  | ok group =>
    cases terms'.mapM (termOf atom) with
    | error fault => rfl
    | ok group' => simp [bind, Except.bind, pure, Except.pure]

/-- Two groups with a bar between them hold if one does. -/
private theorem textHolds_bar {cs ds : List Char} (hcs : ∀ c ∈ cs, endsGroup c = false)
    (hds : ∀ c ∈ ds, endsGroup c = false) :
    textHolds atom facts (cs ++ '|' :: ds) =
      (textHolds atom facts cs || textHolds atom facts ds) := by
  obtain ⟨terms, terms', hterms, hterms', hbar⟩ := exists_termTexts_of_none hcs hds
  simp [textHolds, hterms, hterms', hbar]

/-- Where the groups of a text are those of two others together, checking it comes to checking them
one after the other. -/
theorem evalRead_join (hatom : ∀ cs r, atom cs = .ok r → ∃ b, eval facts r = .ok b)
    {s t whole : String} (hs : s ≠ "") (ht : t ≠ "") (hwhole : whole ≠ "")
    {join : List (List Requirement) → List (List Requirement) → List (List Requirement)}
    (hgroups : groupsOf atom whole.toList = do
      let groups ← groupsOf atom s.toList
      let groups' ← groupsOf atom t.toList
      return join groups groups')
    {op : Bool → Bool → Bool}
    (hholds : textHolds atom facts whole.toList =
      op (textHolds atom facts s.toList) (textHolds atom facts t.toList)) :
    evalRead facts (readWith atom (some whole)) = do
      let a ← evalRead facts (readWith atom (some s))
      let b ← evalRead facts (readWith atom (some t))
      return op a b := by
  -- The whole fails as the first text does, and as the second one if the first can be read.
  cases hgs : groupsOf atom s.toList with
  | error fault =>
    rw [hgs] at hgroups
    rw [readWith_eq_map_groupsOf hwhole, readWith_eq_map_groupsOf hs, hgroups, hgs]
    rfl
  | ok groups =>
    rw [evalRead_of_readable hatom hs (readable_iff.mpr ⟨groups, hgs⟩)]
    rw [hgs] at hgroups
    cases hgt : groupsOf atom t.toList with
    | error fault =>
      rw [hgt] at hgroups
      rw [readWith_eq_map_groupsOf hwhole, readWith_eq_map_groupsOf ht, hgroups, hgt]
      rfl
    | ok groups' =>
      rw [hgt] at hgroups
      rw [evalRead_of_readable hatom ht (readable_iff.mpr ⟨groups', hgt⟩),
        evalRead_of_readable hatom hwhole (readable_iff.mpr ⟨_, hgroups⟩), hholds]
      rfl

end

/-! ## The algebra -/

/-- What separators between texts and rearranging a text mean for reading it and for its answer. -/
structure TextAlgebra (reader : Option String → Except ReadFault Requirement)
    (answer : String → Except CheckFault Bool) : Prop where
  /-- With a separator of groups between them, two texts are read exactly if both of them are. -/
  reads_iff : ∀ {s t sep : String}, s ≠ "" → t ≠ "" → sep ∈ [",", "&"] →
    ((∃ r, reader (some (s ++ sep ++ t)) = .ok r) ↔
      (∃ r, reader (some s) = .ok r) ∧ ∃ r, reader (some t) = .ok r)
  /-- They are read as the groups of the first and then those of the second. -/
  reads : ∀ {s t sep : String}, s ≠ "" → t ≠ "" → sep ∈ [",", "&"] → ∀ {r r' : Requirement},
    reader (some s) = .ok r → reader (some t) = .ok r' →
      ∃ groups groups', r = ofGroups groups ∧ r' = ofGroups groups' ∧
        reader (some (s ++ sep ++ t)) = .ok (ofGroups (groups ++ groups'))
  /-- They hold if both do. -/
  answer_and : ∀ {s t sep : String}, s ≠ "" → t ≠ "" → sep ∈ [",", "&"] →
    answer (s ++ sep ++ t) = do
      let a ← answer s
      let b ← answer t
      return a && b
  /-- With a bar between them, two texts without separators of groups hold if one of them does. -/
  answer_or : ∀ {s t : String}, s ≠ "" → t ≠ "" → (∀ c ∈ s.toList, endsGroup c = false) →
    (∀ c ∈ t.toList, endsGroup c = false) →
      answer (s ++ "|" ++ t) = do
        let a ← answer s
        let b ← answer t
        return a || b
  /-- A text with the same sets of terms is read, too, and has the same answer. -/
  answer_of_termSets_eq : ∀ {s t : String} {r : Requirement}, s ≠ "" → t ≠ "" →
    reader (some s) = .ok r → termSets s.toList = termSets t.toList →
      (∃ r', reader (some t) = .ok r') ∧ answer t = answer s
  /-- So is and has a text that has been rearranged. -/
  answer_of_rearranged : ∀ {s t : String} {r : Requirement}, s ≠ "" → t ≠ "" →
    reader (some s) = .ok r → Rearranged s.toList t.toList →
      (∃ r', reader (some t) = .ok r') ∧ answer t = answer s

variable {atom : List Char → Except ReadFault Requirement} {facts : Facts}

/-- A separator of groups between two texts, as characters. -/
private theorem toList_append_separator {sep : String} (h : sep ∈ [",", "&"]) (s t : String) :
    s ++ sep ++ t ≠ "" ∧
      ∃ c, separator? c = some .and ∧ (s ++ sep ++ t).toList = s.toList ++ c :: t.toList := by
  rcases List.mem_pair.mp h with rfl | rfl
  · exact ⟨by simp, ',', rfl, by simp⟩
  · exact ⟨by simp, '&', rfl, by simp⟩

/-- Texts with the same sets of terms are both read or both refused, and have the same answer. -/
private theorem answer_congr (hatom : ∀ cs r, atom cs = .ok r → ∃ b, eval facts r = .ok b)
    {s t : String} {r : Requirement} (hs : s ≠ "") (ht : t ≠ "")
    (hr : readWith atom (some s) = .ok r) (hsets : termSets s.toList = termSets t.toList) :
    (∃ r', readWith atom (some t) = .ok r') ∧
      evalRead facts (readWith atom (some t)) = evalRead facts (readWith atom (some s)) := by
  have hread := (exists_readWith_iff.mp ⟨r, hr⟩).2
  have hread' := (readable_congr hsets).mp hread
  refine ⟨exists_readWith_iff.mpr ⟨ht, hread'⟩, ?_⟩
  rw [evalRead_of_readable hatom hs hread, evalRead_of_readable hatom ht hread',
    textHolds_congr hsets]

/-- Where every atom that is read has an answer, the texts form an algebra. -/
private theorem textAlgebra (hatom : ∀ cs r, atom cs = .ok r → ∃ b, eval facts r = .ok b) :
    TextAlgebra (readWith atom) fun s => evalRead facts (readWith atom (some s)) where
  reads_iff {s t sep} hs ht hsep := by
    obtain ⟨hne, c, hc, htext⟩ := toList_append_separator hsep s t
    -- the groups of the joined text are those of the one and then those of the other
    simp only [exists_readWith_iff, readable_iff, htext, groupsOf_append_cons hc, ne_eq, hne, hs,
      ht, not_false_eq_true, true_and]
    cases groupsOf atom s.toList <;> cases groupsOf atom t.toList <;>
      simp [bind, Except.bind, pure, Except.pure]
  reads {s t sep} hs ht hsep r r' hr hr' := by
    obtain ⟨hne, c, hc, htext⟩ := toList_append_separator hsep s t
    rw [readWith_eq_map_groupsOf hs] at hr
    rw [readWith_eq_map_groupsOf ht] at hr'
    rw [readWith_eq_map_groupsOf hne, htext, groupsOf_append_cons hc]
    -- Both texts are read, so both have groups.
    cases hgs : groupsOf atom s.toList with
    | error fault => simp [hgs, Except.map] at hr
    | ok groups =>
      cases hgt : groupsOf atom t.toList with
      | error fault => simp [hgt, Except.map] at hr'
      | ok groups' =>
        rw [hgs] at hr
        rw [hgt] at hr'
        exact ⟨groups, groups', (Except.ok.inj hr).symm, (Except.ok.inj hr').symm, rfl⟩
  answer_and {s t sep} hs ht hsep := by
    obtain ⟨hne, c, hc, htext⟩ := toList_append_separator hsep s t
    -- A comma or an ampersand ends a group, so the groups stay apart.
    have hgroups := @groupsOf_append_cons atom c hc s.toList t.toList
    have hholds := @textHolds_append_cons atom facts c hc s.toList t.toList
    rw [← htext] at hgroups hholds
    exact evalRead_join hatom hs ht hne hgroups hholds
  answer_or {s t} hs ht hcs hds := by
    -- A bar does not end a group, so the terms of the two groups come together in one.
    have htext : (s ++ "|" ++ t).toList = s.toList ++ '|' :: t.toList := by simp
    have hgroups := @groupsOf_bar atom s.toList t.toList hcs hds
    have hholds := @textHolds_bar atom facts s.toList t.toList hcs hds
    rw [← htext] at hgroups hholds
    exact evalRead_join hatom hs ht (by simp) hgroups hholds
  answer_of_termSets_eq := answer_congr hatom
  answer_of_rearranged hs ht hr h := answer_congr hatom hs ht hr h.termSets_eq

/-- The texts of version requirements form an algebra for every running version, and the texts of
requirements on mods for every list of installed ones. -/
theorem texts_form_algebra :
    (∀ running : Version, TextAlgebra read fun s => check (some running) (some s)) ∧
    ∀ mods : List String, TextAlgebra readNeeds fun s => checkNeeds (some mods) (some s) := by
  refine ⟨fun running => textAlgebra fun cs r hr => ?_, fun mods => textAlgebra fun cs r hr => ?_⟩
  · exact exists_eval_of_isVersionTerm running none (isVersionTerm_of_versionAtom hr)
  · exact exists_eval_of_isModReference none mods (isModReference_of_modAtom hr)

/-- In another order, with another separator, a group twice and a bar more, a text has the same
answer. -/
theorem texts_form_algebra_groups_swapped :
    read (some "1.8,!1.9") = .ok (.allOf [.anyOf [.version ⟨.bare, .minor 1 8⟩],
        .anyOf [.negation (.version ⟨.bare, .minor 1 9⟩)]]) ∧
      Rearranged "1.8,!1.9".toList "!1.9&|1.8,!1.9".toList ∧
      check (some (.full 1 8 1)) (some "!1.9&|1.8,!1.9") =
        check (some (.full 1 8 1)) (some "1.8,!1.9") := by
  have hread : read (some "1.8,!1.9") = .ok (.allOf [.anyOf [.version ⟨.bare, .minor 1 8⟩],
      .anyOf [.negation (.version ⟨.bare, .minor 1 9⟩)]]) :=
    (readWith_eq_reading versionAtom (by decide)).trans rfl
  have hgroups : Rearranged "1.8,!1.9".toList ("!1.9&".toList ++ "1.8,!1.9".toList) := by
    have hcs : Text.pieces endsGroup "1.8,!1.9".toList = ["1.8".toList, "!1.9".toList] := by decide
    have hds : Text.pieces endsGroup ("!1.9&".toList ++ "1.8,!1.9".toList) =
        ["!1.9".toList, "1.8".toList, "!1.9".toList] := by
      decide
    refine .groups fun segment => ?_
    simp only [hcs, hds, List.mem_cons, List.not_mem_nil, or_false]
    tauto
  have hbar : Rearranged ("!1.9&".toList ++ "1.8,!1.9".toList)
      ("!1.9&".toList ++ '|' :: "1.8,!1.9".toList) :=
    .bar (.inl (by simp [separator?]))
  have hrearranged : Rearranged "1.8,!1.9".toList "!1.9&|1.8,!1.9".toList := hgroups.trans hbar
  exact ⟨hread, hrearranged, ((texts_form_algebra.1 _).answer_of_rearranged (by decide) (by decide)
    hread hrearranged).2⟩

end VersionGate.Requirement

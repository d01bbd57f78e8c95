import VersionGate.Annotation
import VersionGate.Proofs.Requirement.Evaluation

/-!
# What becomes of a name

A name is malformed, or its annotation does not hold, or the entry stays under what is left of the
name once the annotation is out of it. Which names are malformed does not depend on the running
version: a requirement that was read always has an answer.

## Key results

- `malformedName_iff`: a name is malformed exactly when it has a fault, `NameFault.of?`
- `Verdict.ofName_cases`: the three outcomes of judging a name, with what decides between them
- `Verdict.ofName_of_hasMarker`: a name without a marker stays as it is
- `AnnotatedName.split_annotate`: an annotation at the end of such a name is taken out again
-/

namespace VersionGate

/-- A name in which a marker has no closing bracket behind it, or whose brackets hold something that
is no requirement. -/
inductive MalformedName : Option String → Prop where
  | unclosed {name : String} {before after : List Char}
      (marked : AnnotatedName.cutAtMarker name.toList = some (before, after))
      (unclosed : ']' ∉ after) : MalformedName (some name)
  | refused {name stripped : Option String} {requirement : String} {fault : ReadFault}
      (annotated : AnnotatedName.split name = .ok ⟨stripped, some requirement⟩)
      (refused : Requirement.read requirement = .error fault) : MalformedName name

/-- A name whose annotation does not hold for the running version. -/
def Excluded (running : Version) (name : Option String) : Prop :=
  ∃ stripped requirement, AnnotatedName.split name = .ok ⟨stripped, some requirement⟩ ∧
    Requirement.check running requirement = .ok false

/-- A name without its annotation. One that cannot be split stays as it is. -/
def AnnotatedName.stripped (name : Option String) : Option String :=
  match split name with
  | .ok annotated => annotated.name
  | .error _ => name

/-- The fault of a malformed name. -/
def NameFault.of? (name : Option String) : Option NameFault :=
  match AnnotatedName.split name with
  | .error fault => some fault
  | .ok ⟨_, none⟩ => none
  | .ok ⟨_, some requirement⟩ =>
    match Requirement.read requirement with
    | .ok _ => none
    | .error (.malformed cause) => some (.malformed (name.getD "") cause)
    | .error (.tooLong numeral) => some (.tooLong numeral)

/-! ## Splitting a name -/

/-- A name cannot be split exactly when its first marker has no closing bracket behind it. -/
private theorem AnnotatedName.split_eq_error_iff {name : Option String} :
    (∃ fault, split name = .error fault) ↔
      ∃ s before after, name = some s ∧ cutAtMarker s.toList = some (before, after) ∧
        ']' ∉ after := by
  cases name with
  | none => simp [split]
  | some s =>
    rw [split, splitChars]
    cases hcut : cutAtMarker s.toList with
    | none => simp [hcut]
    | some p =>
      obtain ⟨before, after⟩ := p
      cases hclose : Text.cutAt ']' after with
      | none => simp [hcut, ← Text.cutAt_eq_none_iff, hclose]
      | some q => simp [hcut, ← Text.cutAt_eq_none_iff, hclose]

/-- Without an annotation, a name is split into itself. -/
theorem AnnotatedName.eq_of_split_none {name stripped : Option String}
    (h : split name = .ok ⟨stripped, none⟩) : stripped = name := by
  cases name with
  | none => simpa [split, eq_comm] using h
  | some s =>
    rw [split, splitChars] at h
    split at h
    · simpa [eq_comm] using h
    · split at h
      · exact nomatch h
      · simp at h

/-- What follows a marker at the front of a text is the text without the marker. -/
private theorem AnnotatedName.eq_of_afterMarker? {ms cs after : List Char}
    (h : afterMarker? ms cs = some after) :
    ∃ mark, cs = mark ++ after ∧ List.Forall₂ (fun m c => matchesMarker m c = true) ms mark := by
  induction ms generalizing cs with
  | nil =>
    simp only [afterMarker?, Option.some.injEq] at h
    exact ⟨[], h, .nil⟩
  | cons m ms ih =>
    cases cs with
    | nil => contradiction
    | cons c cs =>
      rw [afterMarker?] at h
      split at h
      · next hc =>
        obtain ⟨mark, rfl, hmark⟩ := ih h
        exact ⟨c :: mark, rfl, .cons hc hmark⟩
      · contradiction

/-- Cutting a text at its first marker takes the marker out. -/
theorem AnnotatedName.eq_of_cutAtMarker {cs before after : List Char}
    (h : cutAtMarker cs = some (before, after)) :
    ∃ mark, cs = before ++ mark ++ after ∧
      List.Forall₂ (fun m c => matchesMarker m c = true) marker.toList mark := by
  induction cs generalizing before with
  | nil => contradiction
  | cons c cs ih =>
    rw [cutAtMarker] at h
    split at h
    · next rest hrest =>
      simp only [Option.some.injEq, Prod.mk.injEq] at h
      obtain ⟨rfl, rfl⟩ := h
      exact eq_of_afterMarker? hrest
    · simp only [Option.map_eq_some_iff, Prod.exists, Prod.mk.injEq] at h
      obtain ⟨front, rest, hcut, rfl, rfl⟩ := h
      obtain ⟨mark, rfl, hmark⟩ := ih hcut
      exact ⟨mark, rfl, hmark⟩

/-- Taking an annotation out of a name makes it shorter. -/
theorem AnnotatedName.length_lt_of_split {name stripped : Option String} {requirement : String}
    (h : split name = .ok ⟨stripped, some requirement⟩) :
    (stripped.getD "").length < (name.getD "").length := by
  cases name with
  | none => simp [split] at h
  | some s =>
    rw [split, splitChars] at h
    split at h
    · simp at h
    · next before after hcut =>
      split at h
      · contradiction
      · next inside rest hclose =>
        simp only [Except.ok.injEq, mk.injEq, Option.some.injEq] at h
        obtain ⟨rfl, -⟩ := h
        obtain ⟨mark, hs, -⟩ := eq_of_cutAtMarker hcut
        obtain ⟨rfl, -⟩ := Text.eq_of_cutAt hclose
        -- The closing bracket alone is enough.
        have hlength : s.length = (before ++ mark ++ (inside ++ ']' :: rest)).length := by
          rw [← hs, String.length_toList]
        simp only [Option.getD_some, String.length_ofList, List.length_append, List.length_cons]
          at hlength ⊢
        omega

/-! ## Malformed names -/

/-- A name is malformed exactly if something is wrong with it. -/
theorem malformedName_iff {name : Option String} :
    MalformedName name ↔ ∃ fault, NameFault.of? name = some fault := by
  rw [NameFault.of?]
  constructor
  · intro h
    cases h with
    | @unclosed s before after marked unclosed =>
      obtain ⟨fault, hfault⟩ :=
        AnnotatedName.split_eq_error_iff.mpr ⟨s, before, after, rfl, marked, unclosed⟩
      exact ⟨fault, by rw [hfault]⟩
    | @refused _ stripped requirement fault annotated refused =>
      rw [annotated]
      cases fault <;> simp [refused]
  · -- There is a fault for a bracket that is missing, or for what is in the brackets.
    rintro ⟨fault, h⟩
    split at h
    · next hsplit =>
      obtain ⟨s, before, after, rfl, marked, unclosed⟩ :=
        AnnotatedName.split_eq_error_iff.mp ⟨_, hsplit⟩
      exact .unclosed marked unclosed
    · exact nomatch h
    · next hsplit =>
      split at h
      · exact nomatch h
      · next hread => exact .refused hsplit hread
      · next hread => exact .refused hsplit hread

instance (name : Option String) : Decidable (MalformedName name) :=
  decidable_of_iff ((NameFault.of? name).isSome)
    (by rw [malformedName_iff, Option.isSome_iff_exists])

/-- Every other name has nothing wrong with it. -/
theorem not_malformedName_iff {name : Option String} :
    ¬MalformedName name ↔ NameFault.of? name = none := by
  rw [malformedName_iff, Option.eq_none_iff_forall_ne_some]
  simp

/-! ## Judging a name -/

/-- A malformed name is not judged by the running version. -/
theorem MalformedName.not_excluded {name : Option String} (h : MalformedName name)
    (running : Version) : ¬Excluded running name := by
  rintro ⟨stripped, requirement, hsplit, hcheck⟩
  cases h with
  | unclosed marked unclosed =>
    obtain ⟨fault, hfault⟩ :=
      AnnotatedName.split_eq_error_iff.mpr ⟨_, _, _, rfl, marked, unclosed⟩
    simp [hfault] at hsplit
  | refused annotated refused =>
    rw [annotated] at hsplit
    simp only [Except.ok.injEq, AnnotatedName.mk.injEq, Option.some.injEq] at hsplit
    rw [← hsplit.2, Requirement.check_of_read_error refused] at hcheck
    exact nomatch hcheck

/-- The three outcomes of judging a name. -/
theorem Verdict.ofName_cases (running : Version) (name : Option String) :
    (∃ fault, NameFault.of? name = some fault ∧ ofName running name = .fail fault) ∨
    (NameFault.of? name = none ∧ Excluded running name ∧ ofName running name = .remove) ∨
    (NameFault.of? name = none ∧ ¬Excluded running name ∧
      ofName running name = .keep (AnnotatedName.stripped name)) := by
  rw [ofName, NameFault.of?, Excluded, AnnotatedName.stripped]
  cases hsplit : AnnotatedName.split name with
  | error fault => exact .inl ⟨fault, rfl, rfl⟩
  | ok annotated =>
    obtain ⟨stripped, requirement⟩ := annotated
    cases requirement with
    | none =>
      -- A name without an annotation stays, under itself.
      have := AnnotatedName.eq_of_split_none hsplit
      exact .inr (.inr ⟨rfl, by simp, by simp [this]⟩)
    | some requirement =>
      cases hread : Requirement.read requirement with
      | error fault =>
        have hcheck := Requirement.check_of_read_error hread (some running)
        cases fault with
        | malformed cause =>
          exact .inl ⟨.malformed (name.getD "") cause, by simp [hread], by simp [hcheck]⟩
        | tooLong numeral => exact .inl ⟨.tooLong numeral, by simp [hread], by simp [hcheck]⟩
      | ok r =>
        obtain ⟨b, hcheck⟩ := Requirement.exists_check_of_read hread running
        cases b with
        | false => exact .inr (.inl ⟨by simp [hread], by simp [hcheck], by simp [hcheck]⟩)
        | true => exact .inr (.inr ⟨by simp [hread], by simp [hcheck], by simp [hcheck]⟩)

/-- A malformed name is refused with its fault. -/
theorem Verdict.ofName_of_fault {name : Option String} {fault : NameFault}
    (h : NameFault.of? name = some fault) (running : Version) :
    ofName running name = .fail fault := by
  rcases ofName_cases running name with ⟨e, he, hv⟩ | ⟨he, -, -⟩ | ⟨he, -, -⟩
  · rw [hv, Option.some.inj (he.symm.trans h)]
  · exact nomatch he.symm.trans h
  · exact nomatch he.symm.trans h

/-- A name whose annotation holds stays, without the annotation. -/
theorem Verdict.ofName_of_not_excluded {running : Version} {name : Option String}
    (h : NameFault.of? name = none) (hex : ¬Excluded running name) :
    ofName running name = .keep (AnnotatedName.stripped name) := by
  rcases ofName_cases running name with ⟨e, he, -⟩ | ⟨-, hex', -⟩ | ⟨-, -, hv⟩
  · exact nomatch he.symm.trans h
  · exact absurd hex' hex
  · exact hv

/-- A name is to be removed exactly if the running version excludes it. -/
theorem Verdict.ofName_eq_remove_iff {running : Version} {name : Option String} :
    ofName running name = .remove ↔ Excluded running name := by
  rcases ofName_cases running name with ⟨fault, hfault, h⟩ | ⟨-, hex, h⟩ | ⟨-, hex, h⟩
  · have hmal : MalformedName name := malformedName_iff.mpr ⟨fault, hfault⟩
    simp [h, hmal.not_excluded running]
  · simp [h, hex]
  · simp [h, hex]

instance (running : Version) (name : Option String) : Decidable (Excluded running name) :=
  decidable_of_iff _ Verdict.ofName_eq_remove_iff

/-! ## Names without a marker -/

namespace AnnotatedName

/-- Whether there is a marker in a name. -/
def hasMarker (name : Option String) : Bool := name.any fun s => (cutAtMarker s.toList).isSome

/-- A name from which taking out the annotation, if it has one, leaves no marker. -/
def StripsClean (name : Option String) : Prop :=
  ∀ stripped requirement, split name = .ok ⟨stripped, some requirement⟩ →
    hasMarker stripped = false

instance (name : Option String) : Decidable (StripsClean name) :=
  decidable_of_iff
    ((match split name with
      | .ok ⟨stripped, some _⟩ => hasMarker stripped
      | _ => false) = false) (by
    rw [StripsClean]
    cases split name with
    | error fault => simp
    | ok annotated =>
      obtain ⟨stripped, requirement⟩ := annotated
      cases requirement with
      | none => simp
      | some requirement => simp)

/-- A name without a marker is split into itself and no annotation. -/
theorem split_of_hasMarker {name : Option String} (h : hasMarker name = false) :
    split name = .ok ⟨name, none⟩ := by
  cases name with
  | none => rfl
  | some s =>
    have hcut : cutAtMarker s.toList = none := by simpa [hasMarker] using h
    rw [split, splitChars, hcut, String.ofList_toList]

/-- A name is split without an annotation only if there is no marker in it. -/
theorem hasMarker_of_split_none {name stripped : Option String}
    (h : split name = .ok ⟨stripped, none⟩) : hasMarker name = false := by
  cases name with
  | none => rfl
  | some s =>
    rw [split, splitChars] at h
    split at h
    · next hcut => simp [hasMarker, hcut]
    · split at h
      · exact nomatch h
      · simp at h

/-- A name without a marker stays as it is. -/
theorem stripped_of_hasMarker {name : Option String} (h : hasMarker name = false) :
    stripped name = name := by
  rw [stripped, split_of_hasMarker h]

end AnnotatedName

/-- Nothing is wrong with a name without a marker. -/
theorem of?_of_hasMarker {name : Option String} (h : AnnotatedName.hasMarker name = false) :
    NameFault.of? name = none := by
  rw [NameFault.of?, AnnotatedName.split_of_hasMarker h]

/-- No version excludes a name without a marker. -/
theorem not_excluded_of_hasMarker {name : Option String}
    (h : AnnotatedName.hasMarker name = false) (running : Version) : ¬Excluded running name := by
  rintro ⟨stripped, requirement, hsplit, -⟩
  rw [AnnotatedName.split_of_hasMarker h] at hsplit
  simp at hsplit

/-- A name without a marker stays as it is. -/
theorem Verdict.ofName_of_hasMarker {name : Option String}
    (h : AnnotatedName.hasMarker name = false) (running : Version) :
    ofName running name = .keep name := by
  rw [ofName, AnnotatedName.split_of_hasMarker h]

/-- There is no annotation in a name without a marker that could leave one. -/
theorem stripsClean_of_hasMarker {name : Option String}
    (h : AnnotatedName.hasMarker name = false) : AnnotatedName.StripsClean name := by
  intro stripped requirement hsplit
  rw [AnnotatedName.split_of_hasMarker h] at hsplit
  simp at hsplit

/-- Once the annotation is out of a name that can be decided, there is no marker in it. -/
theorem hasMarker_stripped {name : Option String} (hfault : NameFault.of? name = none)
    (hclean : AnnotatedName.StripsClean name) :
    AnnotatedName.hasMarker (AnnotatedName.stripped name) = false := by
  rw [NameFault.of?] at hfault
  rw [AnnotatedName.stripped]
  cases hsplit : AnnotatedName.split name with
  | error fault => simp [hsplit] at hfault
  | ok annotated =>
    obtain ⟨stripped, requirement⟩ := annotated
    cases requirement with
    | none =>
      obtain rfl := AnnotatedName.eq_of_split_none hsplit
      exact AnnotatedName.hasMarker_of_split_none hsplit
    | some requirement => exact hclean stripped requirement hsplit

/-! ## Annotating a name -/

namespace AnnotatedName

/-- A name with a requirement behind it, in brackets. -/
def annotate (name requirement : String) : String := name ++ marker ++ requirement ++ "]"

private theorem matchesMarker_self (m : Char) : matchesMarker m m = true := by
  simp [matchesMarker]

/-- The marker's letters match themselves. -/
private theorem forall₂_matchesMarker_self (ms : List Char) :
    List.Forall₂ (fun m c => matchesMarker m c = true) ms ms := by
  induction ms with
  | nil => exact .nil
  | cons m ms ih => exact .cons (matchesMarker_self m) ih

/-- Behind letters that match those of the marker, the rest of the text is left. -/
theorem afterMarker?_append {ms mark : List Char}
    (h : List.Forall₂ (fun m c => matchesMarker m c = true) ms mark) (rest : List Char) :
    afterMarker? ms (mark ++ rest) = some rest := by
  induction h with
  | nil => rfl
  | cons hc _ ih => rw [List.cons_append, afterMarker?, if_pos hc, ih]

/-- A marker does not reach over a colon that does not belong to it. -/
private theorem afterMarker?_append_colon {ms cs : List Char}
    (hms : ∀ m ∈ ms, matchesMarker m ':' = false) (h : afterMarker? ms cs = none)
    (rest : List Char) : afterMarker? ms (cs ++ ':' :: rest) = none := by
  induction ms generalizing cs with
  | nil => exact nomatch h
  | cons m ms ih =>
    rw [List.forall_mem_cons] at hms
    cases cs with
    | nil => rw [List.nil_append, afterMarker?, hms.1, if_neg (by decide)]
    | cons c cs =>
      rw [afterMarker?] at h
      rw [List.cons_append, afterMarker?]
      split
      · next hc => exact ih hms.2 (by rwa [if_pos hc] at h)
      · rfl

/-- The first marker behind a text without one is where the text ends. -/
theorem cutAtMarker_append {cs mark : List Char} (h : cutAtMarker cs = none)
    (hmark : List.Forall₂ (fun m c => matchesMarker m c = true) marker.toList mark)
    (rest : List Char) : cutAtMarker (cs ++ mark ++ rest) = some (cs, rest) := by
  have hmarker : marker.toList = ':' :: "KSP_VERSION[".toList := rfl
  have hcolon : "KSP_VERSION[".toList.all (!matchesMarker · ':') = true := by decide
  have hafter := afterMarker?_append hmark rest
  obtain ⟨c, tail, hc, -, rfl⟩ := List.forall₂_cons_left_iff.mp (hmarker ▸ hmark)
  obtain rfl : c = ':' := by simpa [matchesMarker] using hc
  induction cs with
  | nil =>
    rw [List.cons_append] at hafter
    rw [List.nil_append, List.cons_append, cutAtMarker, hafter]
  | cons c cs ih =>
    rw [cutAtMarker] at h
    split at h
    · contradiction
    · next hnone =>
      -- Only the first character of a marker is a colon, so none starts at `c` and goes on behind.
      have hstart : afterMarker? marker.toList (c :: (cs ++ ':' :: tail ++ rest)) = none := by
        rw [hmarker, afterMarker?] at hnone ⊢
        split
        · next hc =>
          rw [if_pos hc] at hnone
          rw [List.append_assoc, List.cons_append]
          exact afterMarker?_append_colon (by simpa using hcolon) hnone _
        · rfl
      rw [List.cons_append, List.cons_append, cutAtMarker, hstart]
      simp only [ih (Option.map_eq_none_iff.mp h), Option.map_some]

/-- An annotation at the end of a name without a marker is taken out again. -/
theorem split_annotate {name requirement : String} (hname : hasMarker (some name) = false)
    (hclose : ']' ∉ requirement.toList) :
    split (some (annotate name requirement)) = .ok ⟨some name, some requirement⟩ := by
  have hnone : cutAtMarker name.toList = none := by simpa [hasMarker] using hname
  have htext : (annotate name requirement).toList =
      name.toList ++ marker.toList ++ (requirement.toList ++ [']']) := by
    simp [annotate]
  rw [split, splitChars, htext, cutAtMarker_append hnone (forall₂_matchesMarker_self _)]
  simp only [Text.cutAt_append hclose, List.append_nil, String.ofList_toList]

end AnnotatedName

end VersionGate

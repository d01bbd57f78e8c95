import Mathlib.Data.List.Infix
import VersionGate.Proofs.Annotation

/-!
# The first marker of a name

A marker is a part of a text that agrees with `:KSP_VERSION[` letter by letter, where case does not
matter and four letters beyond ASCII count for the one that they fold to. The first marker of a name
and the first closing bracket behind it take the name apart in one way only, `Parts`, and splitting
the name gives what stands on the two sides and what stands in the brackets.

## Key results

- `cutAtMarker_eq_none_iff`, `exists_firstMarker`: cutting a text finds its first marker
- `FirstMarker.unique`: there is one first marker at most
- `split_of_parts`: splitting a name that has been taken apart
- `split_takes_first_annotation`: what splitting a name gives, for every name
-/

namespace VersionGate.AnnotatedName

/-! ## Markers -/

/-- Letters beyond ASCII that count for a letter of the marker: the long s, the Kelvin sign, and the
i with a dot too many or too few. -/
def otherForms : List (Char × Char) := [('S', 'ſ'), ('K', '\u212a'), ('I', 'İ'), ('I', 'ı')]

/-- Whether `c` counts for the letter `m` of the marker. -/
def SameLetter (m c : Char) : Prop := c.toLower = m.toLower ∨ (m, c) ∈ otherForms

instance (m c : Char) : Decidable (SameLetter m c) := inferInstanceAs (Decidable (_ ∨ _))

/-- A text that is a marker. -/
def IsMarker (mark : List Char) : Prop := List.Forall₂ SameLetter marker.toList mark

instance (mark : List Char) : Decidable (IsMarker mark) :=
  inferInstanceAs (Decidable (List.Forall₂ SameLetter marker.toList mark))

/-- A marker of a text, between what stands before and after it, with no marker that starts further
in front. -/
structure FirstMarker (cs before mark after : List Char) : Prop where
  text : cs = before ++ mark ++ after
  isMarker : IsMarker mark
  first : ∀ front other back, cs = front ++ other ++ back → IsMarker other →
    before.length ≤ front.length

/-- Every spelling of the marker has as many letters. -/
theorem length_of_isMarker {mark : List Char} (h : IsMarker mark) : mark.length = 13 :=
  (List.Forall₂.length_eq h).symm

/-- A character that is no small letter agrees with itself and with its small letter. -/
private theorem toLower_eq_toLower_iff {m c : Char} (hm : m.isLower = false) :
    c.toLower = m.toLower ↔ c = m ∨ c = m.toLower := by
  have hrange : (decide (m.val ≥ 'a'.val) && decide (m.val ≤ 'z'.val)) = false := hm
  simp only [Bool.and_eq_false_iff, decide_eq_false_iff_not] at hrange
  unfold Char.toLower
  grind [Char.ext_iff]

/-- A character matches a letter of the marker if it is one in either case or folds to it. -/
private theorem matchesMarker_iff {m c : Char} (hm : m ∈ marker.toList) :
    matchesMarker m c = true ↔ SameLetter m c := by
  have hlower : m.isLower = false := by
    have hall : marker.toList.all (fun m => !m.isLower) = true := by decide
    simpa using List.all_eq_true.mp hall m hm
  rw [SameLetter, toLower_eq_toLower_iff hlower, matchesMarker, otherForms]
  simp [or_assoc, and_or_left]

/-- So it is for several letters, one by one. -/
private theorem forall₂_matchesMarker_iff {ms cs : List Char} (hms : ∀ m ∈ ms, m ∈ marker.toList) :
    List.Forall₂ (fun m c => matchesMarker m c = true) ms cs ↔ List.Forall₂ SameLetter ms cs := by
  induction ms generalizing cs with
  | nil => simp
  | cons m ms ih =>
    rw [List.forall_mem_cons] at hms
    simp only [List.forall₂_cons_left_iff, matchesMarker_iff hms.1, ih hms.2]

/-- A text is a spelling of the marker exactly if its characters match the marker's letters. -/
private theorem isMarker_iff {mark : List Char} :
    IsMarker mark ↔ List.Forall₂ (fun m c => matchesMarker m c = true) marker.toList mark :=
  (forall₂_matchesMarker_iff fun _ h => h).symm

/-- Every spelling of the marker starts with the colon. -/
theorem exists_eq_colon_cons {mark : List Char} (h : IsMarker mark) :
    ∃ tail, mark = ':' :: tail := by
  have hmarker : marker.toList = ':' :: "KSP_VERSION[".toList := rfl
  obtain ⟨c, tail, hc, -, rfl⟩ := List.forall₂_cons_left_iff.mp (hmarker ▸ isMarker_iff.mp h)
  obtain rfl : c = ':' := by simpa [matchesMarker] using hc
  exact ⟨tail, rfl⟩

/-! ## The first marker -/

/-- Where there is a marker, cutting finds one that starts no further behind. -/
private theorem exists_cutAtMarker {mark : List Char} (hmark : IsMarker mark)
    (front back : List Char) :
    ∃ before after, cutAtMarker (front ++ mark ++ back) = some (before, after) ∧
      before.length ≤ front.length := by
  induction front with
  | nil =>
    have hafter := afterMarker?_append (isMarker_iff.mp hmark) back
    cases mark with
    | nil => exact absurd (length_of_isMarker hmark) (by simp)
    | cons c tail =>
      rw [List.cons_append] at hafter
      exact ⟨[], back, by rw [List.nil_append, List.cons_append, cutAtMarker, hafter], by simp⟩
  | cons c front ih =>
    obtain ⟨before, after, hcut, hlength⟩ := ih
    rw [List.cons_append, List.cons_append, cutAtMarker]
    cases afterMarker? marker.toList (c :: (front ++ mark ++ back)) with
    | some rest => exact ⟨[], rest, rfl, by simp⟩
    | none => exact ⟨c :: before, after, by rw [hcut]; rfl, by simpa using hlength⟩

/-- Cutting finds no marker only where none stands. -/
theorem cutAtMarker_eq_none_iff {cs : List Char} :
    cutAtMarker cs = none ↔ ∀ mark, IsMarker mark → ¬mark <:+: cs := by
  constructor
  · rintro h mark hmark ⟨front, back, rfl⟩
    obtain ⟨before, after, hcut, -⟩ := exists_cutAtMarker hmark front back
    rw [hcut] at h
    contradiction
  · intro h
    cases hcut : cutAtMarker cs with
    | none => rfl
    | some p =>
      obtain ⟨before, after⟩ := p
      obtain ⟨mark, rfl, hmark⟩ := eq_of_cutAtMarker hcut
      exact absurd ⟨before, after, rfl⟩ (h mark (isMarker_iff.mpr hmark))

namespace FirstMarker

variable {cs before mark after before' mark' after' : List Char}

/-- There is one first marker at most. -/
theorem unique (h : FirstMarker cs before mark after) (h' : FirstMarker cs before' mark' after') :
    before = before' ∧ mark = mark' ∧ after = after' := by
  have hbefore : before.length = before'.length :=
    Nat.le_antisymm (h.first before' mark' after' h'.text h'.isMarker)
      (h'.first before mark after h.text h.isMarker)
  have hmark : mark.length = mark'.length := by
    rw [length_of_isMarker h.isMarker, length_of_isMarker h'.isMarker]
  have htext : before ++ (mark ++ after) = before' ++ (mark' ++ after') := by
    rw [← List.append_assoc, ← List.append_assoc, ← h.text, ← h'.text]
  obtain ⟨hsame, hrest⟩ := List.append_inj htext hbefore
  exact ⟨hsame, List.append_inj hrest hmark⟩

end FirstMarker

/-- What cutting a text finds is its first marker. -/
theorem exists_firstMarker {cs before after : List Char}
    (h : cutAtMarker cs = some (before, after)) : ∃ mark, FirstMarker cs before mark after := by
  obtain ⟨mark, hcs, hmark⟩ := eq_of_cutAtMarker h
  refine ⟨mark, hcs, isMarker_iff.mpr hmark, fun front other back hother hisMarker => ?_⟩
  obtain ⟨before', after', hcut, hlength⟩ := exists_cutAtMarker hisMarker front back
  rw [← hother, h, Option.some.injEq, Prod.mk.injEq] at hcut
  rwa [hcut.1]

/-- A text is cut at its first marker. -/
private theorem FirstMarker.cutAtMarker_eq {cs before mark after : List Char}
    (h : FirstMarker cs before mark after) : cutAtMarker cs = some (before, after) := by
  obtain ⟨before', after', hcut, -⟩ := exists_cutAtMarker h.isMarker before after
  rw [← h.text] at hcut
  obtain ⟨mark', h'⟩ := exists_firstMarker hcut
  obtain ⟨rfl, -, rfl⟩ := h.unique h'
  exact hcut

/-- A marker behind a text without one is the first. -/
private theorem firstMarker_append {before mark : List Char} (hmark : IsMarker mark)
    (hbefore : ∀ other, IsMarker other → ¬other <:+: before) (after : List Char) :
    FirstMarker (before ++ mark ++ after) before mark after := by
  have hcut := cutAtMarker_append (cutAtMarker_eq_none_iff.mpr hbefore) (isMarker_iff.mp hmark)
    after
  obtain ⟨mark', h⟩ := exists_firstMarker hcut
  have hlength : mark.length = mark'.length := by
    rw [length_of_isMarker hmark, length_of_isMarker h.isMarker]
  have htext := h.text
  rw [List.append_left_inj, List.append_right_inj] at htext
  rwa [htext] at h ⊢

/-! ## The parts of a name -/

/-- The parts of a name with an annotation: what stands before the marker, the marker, what stands
in the brackets, and what stands behind the closing one. -/
structure Parts where
  before : List Char
  mark : List Char
  requirement : List Char
  rest : List Char
  deriving DecidableEq, Repr

/-- The parts are those of a name, at its first marker and the first closing bracket behind it. -/
structure Parts.Of (p : Parts) (name : String) : Prop where
  marked : FirstMarker name.toList p.before p.mark (p.requirement ++ ']' :: p.rest)
  open_requirement : ']' ∉ p.requirement

/-- Splitting a name that has been taken apart. -/
theorem split_of_parts {name : String} {p : Parts} (h : p.Of name) :
    split (some name) =
      .ok ⟨some (String.ofList (p.before ++ p.rest)), some (String.ofList p.requirement)⟩ := by
  rw [split, splitChars, h.marked.cutAtMarker_eq]
  simp only [Text.cutAt_append h.open_requirement]

/-- A name can be taken apart in one way at most. -/
theorem Parts.Of.unique {name : String} {p q : Parts} (hp : p.Of name) (hq : q.Of name) :
    p = q := by
  obtain ⟨hbefore, hmark, hafter⟩ := hp.marked.unique hq.marked
  have hcut := Text.cutAt_append hp.open_requirement p.rest
  rw [hafter, Text.cutAt_append hq.open_requirement, Option.some.injEq, Prod.mk.injEq] at hcut
  obtain ⟨before, mark, requirement, rest⟩ := p
  obtain ⟨before', mark', requirement', rest'⟩ := q
  simp_all

/-- Splitting a name at its first marker fails exactly if no closing bracket stands behind it, and
otherwise the name can be taken apart. -/
private theorem split_of_firstMarker {name : String} {before mark after : List Char}
    (h : FirstMarker name.toList before mark after) :
    (split (some name) = .error (.unclosed name) ↔ ']' ∉ after) ∧
      (']' ∈ after → ∃! p : Parts, p.Of name) := by
  cases hclose : Text.cutAt ']' after with
  | none =>
    have hsplit : split (some name) = .error (.unclosed name) := by
      rw [split, splitChars, h.cutAtMarker_eq]
      simp only [hclose, String.ofList_toList]
    have hnot : ']' ∉ after := Text.cutAt_eq_none_iff.mp hclose
    exact ⟨iff_of_true hsplit hnot, fun hmem => absurd hmem hnot⟩
  | some q =>
    obtain ⟨requirement, rest⟩ := q
    obtain ⟨rfl, hopen⟩ := Text.eq_of_cutAt hclose
    have hparts : Parts.Of ⟨before, mark, requirement, rest⟩ name := ⟨h, hopen⟩
    refine ⟨iff_of_false ?_ (by simp), fun _ => ⟨_, hparts, fun q hq => hq.unique hparts⟩⟩
    rw [split_of_parts hparts]
    simp

/-- A name that has an annotation can be taken apart. -/
theorem exists_parts_of_split {name : String} {stripped : Option String} {requirement : String}
    (h : split (some name) = .ok ⟨stripped, some requirement⟩) : ∃ p : Parts, p.Of name := by
  cases hcut : cutAtMarker name.toList with
  | none =>
    rw [split_of_hasMarker (by simp [hasMarker, hcut])] at h
    simp at h
  | some q =>
    obtain ⟨before, after⟩ := q
    obtain ⟨mark, hfirst⟩ := exists_firstMarker hcut
    obtain ⟨hrefused, htaken⟩ := split_of_firstMarker hfirst
    by_cases hclose : ']' ∈ after
    · exact (htaken hclose).exists
    · rw [hrefused.mpr hclose] at h
      contradiction

/-- Splitting a name gives the name itself, without an annotation, exactly if there is no marker in
it. Otherwise it has a first marker, and splitting fails, for want of a closing bracket, exactly if
none stands behind that marker. If one does, the name can be taken apart in exactly one way, and
splitting gives what stands on the two sides and what stands in the brackets. What stands in the
brackets does not depend on the two sides: in front there may be anything but a marker, and behind
anything at all. -/
theorem split_takes_first_annotation (name : String) :
    (split (some name) = .ok ⟨some name, none⟩ ↔ ∀ mark, IsMarker mark → ¬mark <:+: name.toList) ∧
    ((∃ mark, IsMarker mark ∧ mark <:+: name.toList) →
      ∃ before mark after, FirstMarker name.toList before mark after ∧
        (split (some name) = .error (.unclosed name) ↔ ']' ∉ after) ∧
        (']' ∈ after → ∃! p : Parts, p.Of name)) ∧
    (∀ p : Parts, p.Of name → split (some name) =
      .ok ⟨some (String.ofList (p.before ++ p.rest)), some (String.ofList p.requirement)⟩) ∧
    ∀ before mark requirement rest, (∀ other, IsMarker other → ¬other <:+: before) →
      IsMarker mark → ']' ∉ requirement →
        split (some (String.ofList (before ++ mark ++ (requirement ++ ']' :: rest)))) =
          .ok ⟨some (String.ofList (before ++ rest)), some (String.ofList requirement)⟩ := by
  refine ⟨?_, ?_, fun p => split_of_parts, ?_⟩
  · rw [← cutAtMarker_eq_none_iff]
    constructor
    · intro h
      simpa [hasMarker] using hasMarker_of_split_none h
    · intro h
      exact split_of_hasMarker (by simp [hasMarker, h])
  · -- Any marker will do: the cut is at the first one, which may be another.
    rintro ⟨mark, hmark, front, back, hname⟩
    obtain ⟨before, after, hcut, -⟩ := exists_cutAtMarker hmark front back
    rw [hname] at hcut
    obtain ⟨mark', h⟩ := exists_firstMarker hcut
    exact ⟨before, mark', after, h, split_of_firstMarker h⟩
  · intro before mark requirement rest hbefore hmark hopen
    have hfirst := firstMarker_append hmark hbefore (requirement ++ ']' :: rest)
    rw [← String.toList_ofList (l := before ++ mark ++ (requirement ++ ']' :: rest))] at hfirst
    exact split_of_parts (p := ⟨before, mark, requirement, rest⟩) ⟨hfirst, hopen⟩

/-- Closing brackets in front of the first marker do not count, nor does a second marker. -/
theorem split_takes_first_annotation_brackets :
    let before := "@A[x]".toList
    let mark := ":ksp_verſıon[".toList
    (∀ other, IsMarker other → ¬other <:+: before) ∧ IsMarker mark ∧ ']' ∉ "1".toList ∧
      split (some "@A[x]:ksp_verſıon[1]:KSP_VERSION[2]") =
        .ok ⟨some "@A[x]:KSP_VERSION[2]", some "1"⟩ := by
  intro before mark
  have hbefore : ∀ other, IsMarker other → ¬other <:+: before :=
    cutAtMarker_eq_none_iff.mp (by decide)
  have hmark : IsMarker mark := by decide
  have hopen : ']' ∉ "1".toList := by decide
  obtain ⟨-, -, -, hsplit⟩ := split_takes_first_annotation "@A[x]:ksp_verſıon[1]:KSP_VERSION[2]"
  exact ⟨hbefore, hmark, hopen,
    hsplit before mark "1".toList ":KSP_VERSION[2]".toList hbefore hmark hopen⟩

end VersionGate.AnnotatedName

import VersionGate.Proofs.Annotation.Marker
import VersionGate.Proofs.Pruning.Convergence

/-!
# Taking out the only annotation

Once the annotation is out of a name with one marker, what stood on its two sides is joined, and
there can be a marker again, of which the beginning stood on one side and the end on the other. That
is the only way: without such a seam there is nothing left to take out, and a second pass over a
tree of such names does nothing.

## Key results

- `not_infix_of_markerCount`: in a name with one marker, none stands on either side of it
- `infix_append_iff_seam`: where a marker in the joined name comes from
- `strip_again_unless_seam`: when taking out the annotation leaves nothing to take out
-/

namespace VersionGate

namespace AnnotatedName

/-! ## Names with one marker -/

/-- How many markers stand in a text. -/
def markerCount (cs : List Char) : Nat := cs.tails.countP fun tail => IsMarker (tail.take 13)

/-- A marker that is put together where `before` and `rest` meet. -/
def SeamMarker (before rest : List Char) : Prop :=
  ∃ left right, left ≠ [] ∧ right ≠ [] ∧ IsMarker (left ++ right) ∧ left <:+ before ∧ right <+: rest

/-- A marker is as long as all others. -/
private theorem take_of_isMarker {mark : List Char} (h : IsMarker mark) (back : List Char) :
    (mark ++ back).take 13 = mark := by
  rw [← length_of_isMarker h, List.take_left]

/-- A character more is the start of a marker more, or of none. -/
private theorem markerCount_cons (c : Char) (cs : List Char) :
    markerCount (c :: cs) = markerCount cs + if IsMarker ((c :: cs).take 13) then 1 else 0 := by
  simp only [markerCount, List.tails_cons, List.countP_cons, decide_eq_true_eq]

/-- More text in front has no fewer markers. -/
private theorem markerCount_le_append (front cs : List Char) :
    markerCount cs ≤ markerCount (front ++ cs) := by
  induction front with
  | nil => exact Nat.le_refl _
  | cons c front ih =>
    rw [List.cons_append, markerCount_cons]
    omega

/-- A marker counts beside those behind it. -/
private theorem markerCount_lt {mark : List Char} (h : IsMarker mark) (front back : List Char) :
    markerCount back < markerCount (front ++ mark ++ back) := by
  have htake := take_of_isMarker h back
  cases mark with
  | nil => exact absurd (length_of_isMarker h) (by simp)
  | cons c tail =>
    rw [List.cons_append] at htake
    calc markerCount back
        ≤ markerCount (tail ++ back) := markerCount_le_append tail back
      _ < markerCount (c :: (tail ++ back)) := by
        rw [markerCount_cons, htake, if_pos h]
        omega
      _ ≤ markerCount (front ++ c :: (tail ++ back)) := markerCount_le_append front _
      _ = markerCount (front ++ (c :: tail) ++ back) := by simp

/-- In a name with one marker, none stands on either side of it. -/
theorem not_infix_of_markerCount {cs before mark after : List Char}
    (h : FirstMarker cs before mark after) (hone : markerCount cs = 1) :
    (∀ other, IsMarker other → ¬other <:+: before) ∧
      ∀ other, IsMarker other → ¬other <:+: after := by
  constructor
  · rintro other hother ⟨front, back, hbefore⟩
    have hfirst := h.first front other (back ++ mark ++ after)
      (by rw [h.text, ← hbefore]; simp) hother
    have hlength := congrArg List.length hbefore
    simp only [List.length_append, length_of_isMarker hother] at hlength
    omega
  · rintro other hother ⟨front, back, rfl⟩
    have hpos := markerCount_lt hother front back
    have hlt := markerCount_lt h.isMarker before (front ++ other ++ back)
    rw [← h.text, hone] at hlt
    omega

/-- Where none stands on either side, a marker in the joined text is put together at the seam. -/
theorem infix_append_iff_seam {before rest : List Char}
    (hbefore : ∀ mark, IsMarker mark → ¬mark <:+: before)
    (hrest : ∀ mark, IsMarker mark → ¬mark <:+: rest) :
    (∃ mark, IsMarker mark ∧ mark <:+: before ++ rest) ↔ SeamMarker before rest := by
  constructor
  · rintro ⟨mark, hmark, hin⟩
    rcases List.infix_append_iff.mp hin with h | h | ⟨left, right, rfl, hleft, hright⟩
    · exact absurd h (hbefore mark hmark)
    · exact absurd h (hrest mark hmark)
    · -- A marker across the seam has a part on either side, or else it would stand on one of them.
      refine ⟨left, right, ?_, ?_, hmark, hleft, hright⟩
      · rintro rfl
        exact hrest _ hmark hright.isInfix
      · rintro rfl
        rw [List.append_nil] at hmark
        exact hbefore _ hmark hleft.isInfix
  · rintro ⟨left, right, -, -, hmark, hleft, hright⟩
    have hin : left ++ right <:+: before ++ rest :=
      List.infix_append_iff.mpr (.inr (.inr ⟨left, right, rfl, hleft, hright⟩))
    exact ⟨left ++ right, hmark, hin⟩

/-- A name is without a marker when none stands in its text. -/
private theorem hasMarker_ofList_eq_false_iff {cs : List Char} :
    hasMarker (some (String.ofList cs)) = false ↔ ∀ mark, IsMarker mark → ¬mark <:+: cs := by
  rw [← cutAtMarker_eq_none_iff]
  simp [hasMarker]

/-- A name with one marker loses it, unless its parts make another one at the seam. -/
private theorem hasMarker_joined_iff {name : String} {p : Parts} (h : p.Of name)
    (hone : markerCount name.toList = 1) :
    hasMarker (some (String.ofList (p.before ++ p.rest))) = false ↔
      ¬SeamMarker p.before p.rest := by
  obtain ⟨hbefore, hafter⟩ := not_infix_of_markerCount h.marked hone
  have hrest : ∀ mark, IsMarker mark → ¬mark <:+: p.rest := by
    intro mark hmark hin
    have hbehind : p.rest <:+ p.requirement ++ ']' :: p.rest := ⟨p.requirement ++ [']'], by simp⟩
    exact hafter mark hmark (hin.trans hbehind.isInfix)
  rw [hasMarker_ofList_eq_false_iff, ← infix_append_iff_seam hbefore hrest]
  simp only [not_exists, not_and]

/-- A name with one annotation at most, which leaves no marker behind. -/
def Seamless (name : Option String) : Prop :=
  ∀ s, name = some s → ∀ p : Parts, p.Of s →
    markerCount s.toList = 1 ∧ ¬SeamMarker p.before p.rest

/-- A seamless name has no marker left when it is stripped. -/
private theorem Seamless.stripsClean {name : Option String} (h : Seamless name) :
    StripsClean name := by
  intro stripped requirement hsplit
  cases name with
  | none => simp [split] at hsplit
  | some s =>
    obtain ⟨p, hp⟩ := exists_parts_of_split hsplit
    obtain ⟨hone, hseam⟩ := h s rfl p hp
    rw [split_of_parts hp, Except.ok.injEq, mk.injEq] at hsplit
    rw [← hsplit.1]
    exact (hasMarker_joined_iff hp hone).mpr hseam

/-- The annotation of a name with one marker leaves no marker behind if splitting the name leaves
none. -/
private theorem seamless_of_stripsClean {name : String} (hone : markerCount name.toList = 1)
    (hclean : StripsClean (some name)) : Seamless (some name) := by
  intro s hs p hp
  obtain rfl := Option.some.inj hs
  exact ⟨hone, (hasMarker_joined_iff hp hone).mp (hclean _ _ (split_of_parts hp))⟩

end AnnotatedName

/-! ## Splitting and pruning again -/

namespace Pruning

open Config AnnotatedName

/-- After a pass that goes through, a tree whose names leave no marker behind has none. -/
private theorem hasMarker_of_mem_result {running : Version} {tree : Node}
    (hfault : (prune running tree).fault = none)
    (hclean : ∀ name ∈ entryNames tree, StripsClean name) :
    ∀ name ∈ entryNames (prune running tree).result, hasMarker name = false := by
  rw [prune, pruneNode_fault, firstFault_eq_none_iff] at hfault
  rw [prune, pruneNode_result_of_none running tree [] tree.name hfault, entryNames_with_name]
  exact hasMarker_of_mem_keptPart running tree tree.name hfault hclean

/-- Taking the annotation out of a name with one marker leaves a name without an annotation, exactly
if no marker is put together at the seam. Once a pass has gone through a tree of such names, no pass
of any checker strips or removes anything in it. -/
theorem strip_again_unless_seam (c d : Checker) (source : String) :
    (∀ (name : String) (p : Parts), p.Of name → markerCount name.toList = 1 →
      ∃ stripped requirement, split (some name) = .ok ⟨stripped, some requirement⟩ ∧
        (split stripped = .ok ⟨stripped, none⟩ ↔ ¬SeamMarker p.before p.rest)) ∧
    ∀ tree : Node, (∀ name ∈ entryNames tree, Seamless name) →
      ∃ outcome, c.prune (some tree) (some source) = .ok (source, outcome) ∧
        (outcome.fault = none →
          ∃ again, d.prune (some outcome.result) (some source) = .ok (source, again) ∧
            again.fault = none ∧ again.result = outcome.result ∧
            (again.reports source).filter Report.isRemoval = []) := by
  constructor
  · intro name p hp hone
    refine ⟨_, _, split_of_parts hp, ?_⟩
    rw [← hasMarker_joined_iff hp hone]
    exact ⟨hasMarker_of_split_none, split_of_hasMarker⟩
  · intro tree hnames
    refine ⟨prune c.running tree, rfl, fun hfault => ?_⟩
    -- After the first pass there is no marker left for another one to find.
    have hclean := hasMarker_of_mem_result hfault fun name h => (hnames name h).stripsClean
    exact ⟨_, rfl, prune_of_hasMarker hclean d.running source⟩

/-- After its annotation is out, a value is left alone by a checker for another version. -/
theorem strip_again_unless_seam_later_version :
    let c : Checker := ⟨0, .full 1 8 1, rfl⟩
    let d : Checker := ⟨0, .full 2 0 0, rfl⟩
    let tree : Node := { name := some "ROOT", values := [⟨some "a:KSP_VERSION[1.8]:b", "1"⟩] }
    (∀ name ∈ entryNames tree, Seamless name) ∧ (prune c.running tree).fault = none ∧
      ∃ again, d.prune (some (prune c.running tree).result) (some "a.cfg") = .ok ("a.cfg", again) ∧
        again.result = (prune c.running tree).result := by
  intro c d tree
  have hnames : ∀ name ∈ entryNames tree, Seamless name := by
    intro name hname
    obtain rfl : name = some "a:KSP_VERSION[1.8]:b" := by
      simpa [tree, entryNames, childNames] using hname
    exact seamless_of_stripsClean (by decide +kernel) (by decide +kernel)
  have hfault : (prune c.running tree).fault = none := by decide +kernel
  obtain ⟨outcome, hprune, hagain⟩ := (strip_again_unless_seam c d "a.cfg").2 tree hnames
  obtain rfl : outcome = prune c.running tree := (Prod.mk.inj (Except.ok.inj hprune)).2.symm
  obtain ⟨again, hsecond, -, hresult, -⟩ := hagain hfault
  exact ⟨hnames, hfault, again, hsecond, hresult⟩

/-- A name with one marker, and a tree with nothing but a value of that name. -/
private def spliced : String := ":KSP_:KSP_VERSION[1.8.1]VERSION[2]"

private def splicedTree : Node := { name := some "ROOT", values := [⟨some spliced, "1"⟩] }

/-- The two sides of the only annotation are put together to another one, which does not hold. -/
theorem strip_again_at_seam :
    markerCount spliced.toList = 1 ∧
      split (some spliced) = .ok ⟨some ":KSP_VERSION[2]", some "1.8.1"⟩ ∧
      split (some ":KSP_VERSION[2]") = .ok ⟨some "", some "2"⟩ ∧
      entryNames (prune (.full 1 8 1) splicedTree).result = [some ":KSP_VERSION[2]"] ∧
      entryNames (prune (.full 1 8 1) (prune (.full 1 8 1) splicedTree).result).result = [] := by
  decide +kernel

end Pruning

end VersionGate

import VersionGate.Text.LowerCase

/-!
# Lower case and the case of ASCII letters

Two texts that differ in the case of ASCII letters alone have one lower-case form. This is not only
a matter of the letters themselves: whether a sigma ends a word depends on the letters around it,
and for that it does not matter either whether these are capital or small.

## Key results

- `apply_toLower`: what need be checked of the capital letters alone
- `lower_congr`: texts that are the same up to the case of ASCII letters
-/

namespace VersionGate.Text

/-- The capital ASCII letters are those from A to Z. -/
private theorem isUpper_iff {c : Char} : c.isUpper ↔ c.val ≥ 'A'.val ∧ c.val ≤ 'Z'.val :=
  decide_eq_true_iff

/-- What is no capital ASCII letter is its own small form. -/
private theorem toLower_eq_self {c : Char} (hc : ¬c.isUpper) : c.toLower = c :=
  dif_neg (mt isUpper_iff.mpr hc)

/-- What is the same for each capital ASCII letter and its small form is so for every character. -/
theorem apply_toLower {β : Type} {f : Char → β}
    (h : ∀ n < 26, f (Char.ofNat (65 + n)).toLower = f (Char.ofNat (65 + n))) (c : Char) :
    f c.toLower = f c := by
  by_cases hc : c.isUpper
  · have hbounds : 65 ≤ c.toNat ∧ c.toNat ≤ 90 := by
      simpa [UInt32.le_iff_toNat_le] using isUpper_iff.mp hc
    have hletter := h (c.toNat - 65) (by omega)
    rwa [Nat.add_sub_cancel' hbounds.1, Char.ofNat_toNat] at hletter
  · rw [toLower_eq_self hc]

/-- Texts that are the same up to the case of ASCII letters. -/
def SameUpToCase (s t : String) : Prop := s.toList.map Char.toLower = t.toList.map Char.toLower

instance (s t : String) : Decidable (SameUpToCase s t) :=
  inferInstanceAs (Decidable (_ = _))

/-- A text is the same in small letters up to their case. -/
theorem sameUpToCase_map_toLower (cs : List Char) :
    SameUpToCase (String.ofList (cs.map Char.toLower)) (String.ofList cs) := by
  have hletter : ∀ c : Char, c.toLower.toLower = c.toLower :=
    apply_toLower (f := Char.toLower) (by decide +kernel)
  rw [SameUpToCase, String.toList_ofList, String.toList_ofList, List.map_map]
  exact List.map_congr_left fun c _ => hletter c

/-- No ASCII letter is passed over in looking for a cased letter. -/
private theorem inRanges_caseIgnorableRanges_of_letter {n : Nat}
    (h : 65 ≤ n ∧ n ≤ 90 ∨ 97 ≤ n ∧ n ≤ 122) : inRanges caseIgnorableRanges n = false := by
  have hranges : caseIgnorableRanges.all (fun range =>
      decide (range.2 < 65 ∨ 90 < range.1 ∧ range.2 < 97 ∨ 122 < range.1)) = true := by
    decide +kernel
  rw [inRanges, List.any_eq_false]
  intro range hrange
  have hapart := of_decide_eq_true (List.all_eq_true.mp hranges range hrange)
  simp only [Bool.and_eq_true, decide_eq_true_eq]
  omega

/-- A character and its small form are both passed over, or neither is. -/
private theorem inRanges_caseIgnorableRanges_toLower (c : Char) :
    inRanges caseIgnorableRanges c.toLower.toNat = inRanges caseIgnorableRanges c.toNat := by
  have hletters : ∀ n < 26, (65 ≤ (Char.ofNat (65 + n)).toNat ∧ (Char.ofNat (65 + n)).toNat ≤ 90) ∧
      97 ≤ (Char.ofNat (65 + n)).toLower.toNat ∧ (Char.ofNat (65 + n)).toLower.toNat ≤ 122 := by
    decide +kernel
  refine apply_toLower (f := fun c => inRanges caseIgnorableRanges c.toNat) (fun n hn => ?_) c
  obtain ⟨hcapital, hsmall⟩ := hletters n hn
  show inRanges caseIgnorableRanges _ = inRanges caseIgnorableRanges _
  rw [inRanges_caseIgnorableRanges_of_letter (.inr hsmall),
    inRanges_caseIgnorableRanges_of_letter (.inl hcapital)]

/-- Whether a text goes on with a cased letter does not depend on the case of ASCII letters. -/
private theorem meetsCased_map_toLower (cs : List Char) :
    meetsCased (cs.map Char.toLower) = meetsCased cs := by
  have hcased := apply_toLower (f := fun c => inRanges casedRanges c.toNat) (by decide +kernel)
  have hskip : (fun c => inRanges caseIgnorableRanges c.toNat) ∘ Char.toLower =
      fun c => inRanges caseIgnorableRanges c.toNat :=
    funext inRanges_caseIgnorableRanges_toLower
  rw [meetsCased, meetsCased, List.dropWhile_map, hskip]
  cases cs.dropWhile fun c => inRanges caseIgnorableRanges c.toNat with
  | nil => rfl
  | cons c rest => exact hcased c

/-- The lower-case form of a character, of which a sigma depends on what is around it, is that of
its small form. -/
private theorem lowerAfter_map_toLower (before cs : List Char) :
    lowerAfter (before.map Char.toLower) (cs.map Char.toLower) = lowerAfter before cs := by
  induction cs generalizing before with
  | nil => rfl
  | cons c cs ih =>
    -- No ASCII letter is one of the two characters that are treated apart.
    have hdotted : (c.toLower = '\u0130') = (c = '\u0130') :=
      apply_toLower (f := (· = '\u0130')) (by decide +kernel) c
    have hsigma : (c.toLower = '\u03a3') = (c = '\u03a3') :=
      apply_toLower (f := (· = '\u03a3')) (by decide +kernel) c
    have hchar : lowerChar c.toLower = lowerChar c :=
      apply_toLower (f := lowerChar) (by decide +kernel) c
    have hrest := ih (c :: before)
    rw [List.map_cons] at hrest
    simp only [List.map_cons, lowerAfter, hdotted, hsigma, hchar, meetsCased_map_toLower, hrest]

/-- Texts that are the same up to the case of ASCII letters have one lower-case form. -/
theorem lower_congr {s t : String} (h : SameUpToCase s t) : lower s = lower t := by
  have hs := lowerAfter_map_toLower [] s.toList
  have ht := lowerAfter_map_toLower [] t.toList
  rw [lower, lower, ← hs, ← ht, h]

end VersionGate.Text

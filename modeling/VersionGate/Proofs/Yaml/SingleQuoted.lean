import Mathlib.Data.List.Basic
import VersionGate.Proofs.Yaml.Quoted
import VersionGate.Proofs.Yaml.Runs

/-!
# Texts between single quotes read back

Where a line is broken at a space the space comes back, and a run of line breaks comes back as
reading folds it. Folding takes the next-line character for a line feed, and for a space where it
stands alone; all other line breaks come back as they were.

## Key results

- `yields_writeRuns`: what reading makes of tidy runs between single quotes
- `singleBack_eq_self_iff`: such a text comes back as it was exactly if no next-line character is in
  it
-/

namespace VersionGate.Yaml.Scalar

open Text (Letter)
open QuotedScalar (Yields fold)

/-- The next-line character. -/
def nextLine : Char := '\u0085'

/-- What comes back of a run of line breaks, in front of which a line feed is written once more. -/
def breaksBack (r : Run) : List Char :=
  if r.first = '\n' then fold '\n' (r.chars.map breakMeaning)
  else fold (breakMeaning r.first) (r.rest.map breakMeaning)

/-- What comes back of a run between single quotes. -/
def Run.back (r : Run) : List Char := if breaksLine r.first then breaksBack r else r.chars

/-- What comes back of a text between single quotes. -/
def singleBack (cs : List Char) : List Char := (runs cs).flatMap Run.back

/-! ## Reading -/

variable {after : List Char}

/-- What is written for a text between single quotes starts with something solid. -/
private theorem solid_singleQuotedChar {ch : Char} (h : IsText ch) (rest : List Char) :
    Solid (singleQuotedChar ch ++ rest) := by
  unfold singleQuotedChar
  split
  · exact solid_cons (by decide) _
  · exact solid_cons h.not_separator _

/-- A character in single quotes is read back. -/
private theorem yields_singleQuotedChar {ch : Char} {cs : List Char} {ls : List Letter}
    (hch : IsText ch) (h : Yields '\'' cs ls after) :
    Yields '\'' (singleQuotedChar ch ++ cs) (.char ch :: ls) after := by
  unfold singleQuotedChar
  split
  · next heq =>
    rw [heq]
    exact QuotedScalar.yields_quote h
  · next hne => exact QuotedScalar.yields_letter hne (fun _ => by decide) hch.not_separator h

/-- So are several of them. -/
private theorem yields_singleQuotedChars {chars cs : List Char} {ls : List Letter}
    (hchars : ∀ ch ∈ chars, IsText ch) (h : Yields '\'' cs ls after) :
    Yields '\'' (chars.flatMap singleQuotedChar ++ cs) (chars.map .char ++ ls) after := by
  induction chars with
  | nil => exact h
  | cons ch chars ih =>
    have hrest := ih fun x hx => hchars x (by simp [hx])
    simpa using yields_singleQuotedChar (hchars ch (by simp)) hrest

/-- Behind spaces and line breaks stands the closing quote or a text. -/
private theorem solid_writeRuns {rs : List Run} (h : StartsText rs) (indent column : Nat)
    (mayBreak : Bool) (after : List Char) :
    Solid (writeRuns indent mayBreak column singleQuotedChar rs ++ '\'' :: after) := by
  cases rs with
  | nil => exact solid_cons (by decide) _
  | cons r rs =>
    have hr : IsText r.first := h r rfl
    rw [writeRuns_text hr, Run.chars, List.flatMap_cons]
    simpa using solid_singleQuotedChar hr _

/-- What reading makes of tidy runs between single quotes. -/
theorem yields_writeRuns {indent : Nat} (hindent : 0 < indent) (after : List Char)
    (hafter : after.head? ≠ some '\'') {rs : List Run} (h : Tidy rs) (mayBreak : Bool)
    (column : Nat) :
    Yields '\'' (writeRuns indent mayBreak column singleQuotedChar rs ++ '\'' :: after)
      ((rs.flatMap Run.back).map .char) after := by
  have hquote : isSeparator '\'' = false := by decide
  -- The induction is on the runs from the last one on, as reading each of them needs what is read
  -- behind it.
  induction h generalizing mayBreak column with
  | nil => exact QuotedScalar.yields_end fun _ => hafter
  | @text r rs hr h ih =>
    have hfirst := hr r.first r.first_mem_chars
    have hback : r.back = r.chars := by rw [Run.back, if_neg (by simp [hfirst.2.2])]
    rw [writeRuns_text hfirst, List.flatMap_cons, hback, List.map_append, List.append_assoc]
    exact yields_singleQuotedChars hr (ih true _)
  | @spaces r rs hr hnext h ih =>
    have hfirst := hr r.first r.first_mem_chars
    have hback : r.back = r.chars := by rw [Run.back, if_neg (by rw [hfirst]; decide)]
    rw [List.flatMap_cons, hback, List.map_append]
    rcases writeRuns_spaces indent column mayBreak singleQuotedChar rs hfirst with
      ⟨column', heq⟩ | ⟨hrest, -, column', heq⟩
    · -- they are written as they are
      have hsolid := solid_writeRuns hnext indent column' true after
      rw [heq, chars_eq_replicate hr, List.map_replicate, List.append_assoc]
      exact QuotedScalar.yields_spaces hquote hsolid _ (ih true column')
    · -- a single one is written as a line break, which is folded to a space
      have hsolid := solid_writeRuns hnext indent column' true after
      have hchars : r.chars = [' '] := by rw [Run.chars, hfirst, hrest]
      have hyields := QuotedScalar.yields_breaks hindent hsolid hquote '\n' []
        ⟨by decide, by decide⟩ (by simp) (ih true column')
      rw [heq, hchars, newLine]
      simpa [fold, breakMeaning] using hyields
  | @breaks r rs hr hnext h ih =>
    have hfirst := hr r.first r.first_mem_chars
    have hsolid := solid_writeRuns hnext indent indent true after
    have hends : ∀ ch ∈ r.chars, Cursor.EndsLine ch := fun ch hch =>
      endsLine_of_breaksLine (hr ch hch)
    have hback : r.back = breaksBack r := by rw [Run.back, if_pos hfirst]
    rw [writeRuns_breaks hfirst, List.flatMap_cons, hback, List.map_append, breaksBack]
    split
    · -- a line feed is written once more in front of the run
      have hyields := QuotedScalar.yields_breaks hindent hsolid hquote '\n' r.chars
        ⟨by decide, by decide⟩ hends (ih true indent)
      simpa [breakMeaning] using hyields
    · have hyields := QuotedScalar.yields_breaks hindent hsolid hquote r.first r.rest
        (hends r.first r.first_mem_chars) (fun x hx => hends x (mem_chars.mpr (.inr hx)))
        (ih true indent)
      simpa [Run.chars] using hyields

/-! ## What comes back -/

private theorem breakMeaning_cases (ch : Char) :
    breakMeaning ch = '\n' ∨ breakMeaning ch = '\u2028' ∨ breakMeaning ch = '\u2029' := by
  unfold breakMeaning
  split
  · next hkept => exact .inr (by simpa using hkept)
  · exact .inl rfl

/-- No line break means the next-line character or a mark. -/
private theorem breakMeaning_ne (ch : Char) :
    breakMeaning ch ≠ nextLine ∧ breakMeaning ch ≠ Text.mark := by
  rcases breakMeaning_cases ch with h | h | h <;> rw [h] <;> decide

/-- Only the next-line character is a line break that means another one. -/
private theorem breakMeaning_eq_self {ch : Char} (h : breaksLine ch = true) (hne : ch ≠ nextLine) :
    breakMeaning ch = ch := by
  have hends := endsLine_of_breaksLine h
  simp only [Cursor.EndsLine, isBreak, Bool.or_eq_true, decide_eq_true_eq] at hends
  rcases hends with ⟨(((rfl | rfl) | rfl) | rfl) | rfl, hreturn⟩
  · rfl
  · exact absurd rfl hreturn
  · exact absurd rfl hne
  · rfl
  · rfl

/-- Folded line breaks hold spaces, the first break and the empty lines, and nothing else. -/
private theorem not_mem_fold {x b : Char} {empty : List Char} (hspace : x ≠ ' ') (hb : b ≠ x)
    (hempty : x ∉ empty) : x ∉ fold b empty := by
  unfold fold
  split
  · simp [Ne.symm hb, hempty]
  · split
    · simpa using hspace
    · exact hempty

/-- What no line break means does not come back of line breaks, unless it is a space. -/
private theorem not_mem_breaksBack {x : Char} {r : Run} (hspace : x ≠ ' ')
    (hx : ∀ ch, breaksLine ch = true → breakMeaning ch ≠ x)
    (h : ∀ ch ∈ r.chars, breaksLine ch = true) : x ∉ breaksBack r := by
  have hmeaning : ∀ chars : List Char, (∀ ch ∈ chars, breaksLine ch = true) →
      x ∉ chars.map breakMeaning := by
    intro chars hchars hmem
    obtain ⟨ch, hch, heq⟩ := List.mem_map.mp hmem
    exact hx ch (hchars ch hch) heq
  unfold breaksBack
  split
  · exact not_mem_fold hspace (hx '\n' (by decide)) (hmeaning _ h)
  · exact not_mem_fold hspace (hx _ (h _ r.first_mem_chars))
      (hmeaning _ fun ch hch => h ch (mem_chars.mpr (.inr hch)))

/-- Line breaks come back as they are if none of them is a next-line character. -/
private theorem breaksBack_eq_chars {r : Run} (h : ∀ ch ∈ r.chars, breaksLine ch = true)
    (hnext : nextLine ∉ r.chars) : breaksBack r = r.chars := by
  have hmeaning : ∀ ch ∈ r.chars, breakMeaning ch = ch := fun ch hch =>
    breakMeaning_eq_self (h ch hch) fun heq => hnext (heq ▸ hch)
  unfold breaksBack
  split
  · rw [List.map_congr_left hmeaning, List.map_id']
    rfl
  · next hfirst =>
    rw [hmeaning _ r.first_mem_chars, List.map_congr_left fun ch hch =>
      hmeaning ch (mem_chars.mpr (.inr hch)), List.map_id', fold, if_pos hfirst]
    rfl

/-- A run is of line breaks, or comes back and has no line breaks in it. -/
private theorem back_cases {rs : List Run} (h : Tidy rs) : ∀ r ∈ rs,
    (r.back = breaksBack r ∧ ∀ ch ∈ r.chars, breaksLine ch = true) ∨
      (r.back = r.chars ∧ nextLine ∉ r.chars) := by
  have hother : ∀ r : Run, (∀ ch ∈ r.chars, breaksLine ch = false) →
      r.back = r.chars ∧ nextLine ∉ r.chars := by
    intro r hr
    have hfirst := hr r.first r.first_mem_chars
    refine ⟨by rw [Run.back, if_neg (by simp [hfirst])], fun hmem => ?_⟩
    exact absurd (hr nextLine hmem) (by decide)
  -- Only runs of line breaks are changed, and no other run has one in it.
  induction h with
  | nil => simp
  | @text r rs hr h ih =>
    intro x hx
    rcases List.mem_cons.mp hx with rfl | hx
    · exact .inr (hother x fun ch hch => (hr ch hch).2.2)
    · exact ih x hx
  | @spaces r rs hr hnext h ih =>
    intro x hx
    rcases List.mem_cons.mp hx with rfl | hx
    · exact .inr (hother x fun ch hch => by rw [hr ch hch]; decide)
    · exact ih x hx
  | @breaks r rs hr hnext h ih =>
    intro x hx
    rcases List.mem_cons.mp hx with rfl | hx
    · exact .inl ⟨by rw [Run.back, if_pos (hr x.first x.first_mem_chars)], hr⟩
    · exact ih x hx

/-- A text comes back from between single quotes exactly if no next-line character is in it. -/
theorem singleBack_eq_self_iff {cs : List Char} (h : allowsSingleQuotes cs = true) :
    singleBack cs = cs ↔ nextLine ∉ cs := by
  have hcases := back_cases (tidy_runs_of_allowsSingleQuotes h)
  have hchars := flatMap_chars_runs cs
  constructor
  · -- folding makes a next-line character into something else, and never gives one
    intro hback hmem
    rw [← hback, singleBack, List.mem_flatMap] at hmem
    obtain ⟨r, hr, hmem⟩ := hmem
    rcases hcases r hr with ⟨hback, hbreaks⟩ | ⟨hback, hnot⟩
    · exact not_mem_breaksBack (by decide) (fun ch _ => (breakMeaning_ne ch).1) hbreaks
        (hback ▸ hmem)
    · exact hnot (hback ▸ hmem)
  · -- every other line break is folded to itself
    intro hnext
    have hsame : ∀ r ∈ runs cs, r.back = r.chars := by
      intro r hr
      rcases hcases r hr with ⟨hback, hbreaks⟩ | ⟨hback, -⟩
      · refine hback.trans (breaksBack_eq_chars hbreaks fun hmem => hnext ?_)
        rw [← hchars]
        exact List.mem_flatMap.mpr ⟨r, hr, hmem⟩
      · exact hback
    rw [singleBack, List.flatMap_congr hsame, hchars]

/-- No mark comes back of a text without special characters. -/
theorem mark_not_mem_singleBack {cs : List Char} (h : allowsSingleQuotes cs = true) :
    Text.mark ∉ singleBack cs := by
  have hchars := flatMap_chars_runs cs
  have hnot : Text.mark ∉ cs := mark_not_mem_of_allowsSingleQuotes h
  intro hmem
  rw [singleBack, List.mem_flatMap] at hmem
  obtain ⟨r, hr, hmem⟩ := hmem
  rcases back_cases (tidy_runs_of_allowsSingleQuotes h) r hr with ⟨hback, hbreaks⟩ | ⟨hback, -⟩
  · exact not_mem_breaksBack (by decide) (fun ch _ => (breakMeaning_ne ch).2) hbreaks
      (hback ▸ hmem)
  · refine hnot ?_
    rw [← hchars]
    exact List.mem_flatMap.mpr ⟨r, hr, hback ▸ hmem⟩

end VersionGate.Yaml.Scalar

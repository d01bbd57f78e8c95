import VersionGate.Proofs.Yaml.Cursor
import VersionGate.Yaml.Scalar

/-!
# Runs of a text

A text that needs no escapes is written run by run. What matters for reading it back is that the
runs are tidy: each is of spaces, of line breaks or of other characters alone, and spaces and line
breaks do not meet.

## Key results

- `flatMap_chars_runs`: the runs of a text make up the text
- `tidy_runs`: the runs of a text that can stand between single quotes are tidy
-/

namespace VersionGate.Yaml.Scalar

/-! ## Characters -/

/-- Whether a character of a text without special ones is neither a space nor a line break. -/
def IsText (ch : Char) : Prop := isSpecial ch = false ∧ ch ≠ ' ' ∧ breaksLine ch = false

/-- A character that is not special is none of the special ones. -/
theorem ne_of_not_special {ch special : Char} (h : isSpecial ch = false)
    (hspecial : isSpecial special = true) : ch ≠ special := by
  rintro rfl
  simp [h] at hspecial

/-- What breaks a line in the writer ends it in the scanner. -/
theorem endsLine_of_breaksLine {ch : Char} (h : breaksLine ch = true) : Cursor.EndsLine ch := by
  simpa [breaksLine, Cursor.EndsLine] using h

/-- Of the characters that are not special, the scanner's breaks are the writer's. -/
private theorem breaksLine_of_isBreak {ch : Char} (h : isSpecial ch = false)
    (hbreak : isBreak ch = true) :
    breaksLine ch = true := by
  have hreturn : ch ≠ '\r' := ne_of_not_special h (by decide)
  simp [breaksLine, hbreak, hreturn]

/-- A character of a text is no separator. -/
theorem IsText.not_separator {ch : Char} (h : IsText ch) : isSeparator ch = false := by
  obtain ⟨hspecial, hspace, hbreak⟩ := h
  have htab : ch ≠ '\t' := ne_of_not_special hspecial (by decide)
  have hnot : isBreak ch = false := by
    cases hb : isBreak ch with
    | false => rfl
    | true => simp [breaksLine_of_isBreak hspecial hb] at hbreak
  simp [isSeparator, isBlank, hspace, htab, hnot]

/-! ## Runs -/

/-- Whether runs start with a text, if there are any. -/
def StartsText (rs : List Run) : Prop := ∀ r ∈ rs.head?, IsText r.first

/-- Runs that can be read back: each of one kind, and behind spaces and line breaks a text. -/
inductive Tidy : List Run → Prop where
  | nil : Tidy []
  | text {r : Run} {rs : List Run} (hr : ∀ ch ∈ r.chars, IsText ch) (h : Tidy rs) : Tidy (r :: rs)
  | spaces {r : Run} {rs : List Run} (hr : ∀ ch ∈ r.chars, ch = ' ') (hnext : StartsText rs)
      (h : Tidy rs) : Tidy (r :: rs)
  | breaks {r : Run} {rs : List Run} (hr : ∀ ch ∈ r.chars, breaksLine ch = true)
      (hnext : StartsText rs) (h : Tidy rs) : Tidy (r :: rs)

/-- The runs of a text make up the text. -/
theorem flatMap_chars_runs (cs : List Char) : (runs cs).flatMap Run.chars = cs := by
  induction cs with
  | nil => rfl
  | cons c cs ih =>
    unfold runs
    split
    · next heq =>
      rw [heq] at ih
      simp_all [Run.chars]
    · next r rs heq =>
      rw [heq, List.flatMap_cons] at ih
      split
      · -- the character joins the first run
        rw [List.flatMap_cons, Run.chars, List.cons_append, ih]
      · -- the character is a run of its own
        rw [List.flatMap_cons, List.flatMap_cons, ih]
        rfl

/-- Only the empty text has no runs. -/
private theorem runs_eq_nil_iff {cs : List Char} : runs cs = [] ↔ cs = [] := by
  constructor
  · intro h
    rw [← flatMap_chars_runs cs, h]
    rfl
  · rintro rfl
    rfl

/-- The first run starts with the first character. -/
theorem first_of_runs {c : Char} {cs : List Char} {r : Run} {rs : List Run}
    (h : runs (c :: cs) = r :: rs) : r.first = c := by
  have hcs := flatMap_chars_runs (c :: cs)
  rw [h, List.flatMap_cons, Run.chars, List.cons_append] at hcs
  exact (List.cons.inj hcs).1

/-- A run of spaces is nothing but spaces. -/
theorem chars_eq_replicate {r : Run} (h : ∀ ch ∈ r.chars, ch = ' ') :
    r.chars = List.replicate r.chars.length ' ' :=
  List.eq_replicate_iff.mpr ⟨rfl, h⟩

/-- The characters of a run are the first one and the rest. -/
theorem mem_chars {r : Run} {ch : Char} : ch ∈ r.chars ↔ ch = r.first ∨ ch ∈ r.rest := by
  rw [Run.chars, List.mem_cons]

theorem Run.first_mem_chars (r : Run) : r.first ∈ r.chars := mem_chars.mpr (.inl rfl)

/-! ## Tidy runs -/

/-- A character that is not special is a space, a line break or one of a text. -/
theorem kind_cases {ch : Char} (h : isSpecial ch = false) :
    ch = ' ' ∨ breaksLine ch = true ∨ IsText ch := by
  by_cases hspace : ch = ' '
  · exact .inl hspace
  · cases hbreak : breaksLine ch with
    | true => exact .inr (.inl rfl)
    | false => exact .inr (.inr ⟨h, hspace, hbreak⟩)

/-- A line break is no space. -/
private theorem ne_space_of_breaksLine {ch : Char} (h : breaksLine ch = true) : ch ≠ ' ' := by
  rintro rfl
  exact absurd h (by decide)

/-- A character in front of a run of its kind belongs to it. -/
private theorem Tidy.cons_same {c : Char} {r : Run} {rs : List Run} (hc : isSpecial c = false)
    (hsame : sameRun c r.first = true) (h : Tidy (r :: rs)) : Tidy (⟨c, r.chars⟩ :: rs) := by
  have hspace : (c == ' ') = (r.first == ' ') := by
    simp [sameRun] at hsame
    simpa using hsame.1
  have hbreak : breaksLine c = breaksLine r.first := by
    simp [sameRun] at hsame
    exact hsame.2
  have hfirst := r.first_mem_chars
  -- In each kind of run the new character is of that kind, as it is of one kind with the first.
  cases h with
  | text hr h =>
    obtain ⟨-, hne, hnb⟩ := hr r.first hfirst
    refine .text (fun ch hch => ?_) h
    rcases mem_chars.mp hch with rfl | hch
    · exact ⟨hc, fun h' => hne (by simpa [h'] using hspace), hbreak.trans hnb⟩
    · exact hr ch hch
  | spaces hr hnext h =>
    refine .spaces (fun ch hch => ?_) hnext h
    rcases mem_chars.mp hch with rfl | hch
    · simpa [hr r.first hfirst] using hspace
    · exact hr ch hch
  | breaks hr hnext h =>
    refine .breaks (fun ch hch => ?_) hnext h
    rcases mem_chars.mp hch with rfl | hch
    · exact hbreak.trans (hr r.first hfirst)
    · exact hr ch hch

/-- A character that starts a run of its own, where spaces and line breaks do not meet. -/
private theorem Tidy.cons_other {c : Char} {rs : List Run} (hc : isSpecial c = false) (h : Tidy rs)
    (hnext : ¬ IsText c → StartsText rs) : Tidy (⟨c, []⟩ :: rs) := by
  have hsingle : ∀ {p : Char → Prop}, p c → ∀ ch ∈ (Run.mk c []).chars, p ch := by
    intro p hp ch hch
    rcases mem_chars.mp hch with rfl | hch
    · exact hp
    · exact absurd hch (List.not_mem_nil)
  rcases kind_cases hc with hspace | hbreak | htext
  · exact .spaces (hsingle hspace) (hnext fun ht => ht.2.1 hspace) h
  · exact .breaks (hsingle hbreak) (hnext fun ht => by simp [ht.2.2] at hbreak) h
  · exact .text (hsingle htext) h

/-- The runs of a text that can stand between single quotes are tidy. -/
theorem tidy_runs {cs : List Char} (hspecial : ∀ c ∈ cs, isSpecial c = false)
    (hbefore : hasPair breaksLine (· == ' ') cs = false)
    (hbehind : hasPair (· == ' ') breaksLine cs = false) : Tidy (runs cs) := by
  induction cs with
  | nil => exact .nil
  | cons c cs ih =>
    have hc := hspecial c (by simp)
    cases cs with
    | nil => exact Tidy.cons_other hc .nil fun _ r hr => absurd hr (by simp)
    | cons d ds =>
      simp only [hasPair, Bool.or_eq_false_iff] at hbefore hbehind
      have hrest := ih (fun x hx => hspecial x (by simp [hx])) hbefore.2 hbehind.2
      have hd := hspecial d (by simp)
      unfold runs
      split
      · next heq => exact absurd (runs_eq_nil_iff.mp heq) (by simp)
      · next r rs heq =>
        rw [heq] at hrest
        have hfirst := first_of_runs heq
        split
        · next hsame => exact hrest.cons_same hc hsame
        · next hother =>
          refine hrest.cons_other hc fun hgap x hx => ?_
          obtain rfl : r = x := by simpa using hx
          rw [hfirst] at hother ⊢
          -- two spaces or two line breaks in a row would be one run
          rcases kind_cases hc, kind_cases hd with ⟨rfl | hcbreak | hctext, rfl | hdbreak | hdtext⟩
          · exact absurd rfl hother
          · simp [hdbreak] at hbehind
          · exact hdtext
          · simp [hcbreak] at hbefore
          · have hcs : (c == ' ') = false := by simpa using ne_space_of_breaksLine hcbreak
            have hds : (d == ' ') = false := by simpa using ne_space_of_breaksLine hdbreak
            simp [sameRun, hcbreak, hdbreak, hcs, hds] at hother
          · exact hdtext
          all_goals exact absurd hctext hgap

/-- The runs of a text that single quotes take are tidy. -/
theorem tidy_runs_of_allowsSingleQuotes {cs : List Char} (h : allowsSingleQuotes cs = true) :
    Tidy (runs cs) := by
  simp only [allowsSingleQuotes, Bool.and_eq_true, Bool.not_eq_true', List.any_eq_false] at h
  exact tidy_runs (fun c hc => by simpa using h.1.1 c hc) h.1.2 h.2

/-- A text that can be plain can stand between single quotes. -/
theorem allowsSingleQuotes_of_allowsPlain {cs : List Char} (h : allowsPlain cs = true) :
    allowsSingleQuotes cs = true := by
  simp only [allowsPlain, Bool.and_eq_true] at h
  exact h.1.1.1.1.1

/-- A text that single quotes take is without the mark. -/
theorem mark_not_mem_of_allowsSingleQuotes {cs : List Char} (h : allowsSingleQuotes cs = true) :
    Text.mark ∉ cs := by
  simp only [allowsSingleQuotes, Bool.and_eq_true, Bool.not_eq_true', List.any_eq_false] at h
  exact fun hmem => h.1.1 Text.mark hmem (by decide)

/-! ## Writing runs -/

section Writing

variable {indent column : Nat} {mayBreak : Bool} {write : Char → List Char} {r : Run}
  {rs : List Run}

/-- A run of text is written as it is. -/
theorem writeRuns_text (h : IsText r.first) :
    writeRuns indent mayBreak column write (r :: rs) =
      r.chars.flatMap write
        ++ writeRuns indent true (column + (r.chars.flatMap write).length) write rs := by
  rw [writeRuns, if_neg h.2.1, if_neg (by simp [h.2.2])]

/-- Spaces are written as they are, or a single one in front of more as a line break. -/
theorem writeRuns_spaces (indent column : Nat) (mayBreak : Bool) (write : Char → List Char)
    (rs : List Run) (h : r.first = ' ') :
    (∃ column', writeRuns indent mayBreak column write (r :: rs) =
        r.chars ++ writeRuns indent true column' write rs) ∨
      r.rest = [] ∧ rs ≠ [] ∧
        ∃ column', writeRuns indent mayBreak column write (r :: rs) =
          newLine indent ++ writeRuns indent true column' write rs := by
  rw [writeRuns, if_pos h]
  split
  · next hbreak =>
    simp only [Bool.and_eq_true, Bool.not_eq_true', List.isEmpty_iff, decide_eq_true_eq] at hbreak
    exact .inr ⟨hbreak.1.1.1, by simpa using hbreak.1.2, _, rfl⟩
  · exact .inl ⟨_, rfl⟩

/-- A run of line breaks is written with the indentation of the next line, and a line feed is
doubled. -/
theorem writeRuns_breaks (h : breaksLine r.first = true) :
    writeRuns indent mayBreak column write (r :: rs) =
      (if r.first = '\n' then ['\n'] else []) ++ r.chars ++ List.replicate indent ' '
        ++ writeRuns indent true indent write rs := by
  rw [writeRuns, if_neg (ne_space_of_breaksLine h), if_pos h]

end Writing

end VersionGate.Yaml.Scalar

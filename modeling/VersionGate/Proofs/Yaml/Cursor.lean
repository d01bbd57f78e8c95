import VersionGate.Yaml.Cursor

/-!
# Moving through a document

A cursor stands before a text when that is what is left of the document from there on. Moving on
takes what it moves over off the front, and inside a line the column grows by at most one with every
character.

## Key results

- `Before.advance`: what a cursor stands before once it has moved over a text
- `Before.skipWhile`: the same for a run of characters of a class
- `advance_of_not_break`: the line and the column behind a text in which nothing breaks the line
-/

namespace VersionGate.Yaml

/-- Whether a text goes on with a character that separates nothing. -/
def Solid (cs : List Char) : Prop := ∃ ch rest, cs = ch :: rest ∧ isSeparator ch = false

/-- What is solid starts with no blank. -/
theorem Solid.not_blank {cs : List Char} (h : Solid cs) : cs.head?.any isBlank = false := by
  obtain ⟨ch, rest, rfl, hch⟩ := h
  simp_all [isSeparator]

/-- What is solid starts with no line break. -/
theorem Solid.not_break {cs : List Char} (h : Solid cs) : cs.head?.any isBreak = false := by
  obtain ⟨ch, rest, rfl, hch⟩ := h
  simp_all [isSeparator]

/-- What starts with no separator is solid. -/
theorem solid_cons {ch : Char} (h : isSeparator ch = false) (rest : List Char) :
    Solid (ch :: rest) := ⟨ch, rest, rfl, h⟩

namespace Cursor

/-- Whether a cursor stands before a text, which goes to the end of the document. -/
def Before (c : Cursor) (cs : List Char) : Prop := c.rest = cs ∧ c.size = c.index + cs.length

variable {c : Cursor} {ch : Char} {pre cs : List Char}

/-- A document starts in front of all its characters. -/
theorem before_start (cs : List Char) : (start cs).Before cs := by simp [start, Before]

/-- As many characters are left as are in front of the cursor. -/
theorem Before.left (h : c.Before cs) : c.left = cs.length := by
  rw [Cursor.left, h.2]
  omega

/-- Behind the next character is the rest. -/
theorem Before.next (h : c.Before (ch :: cs)) : c.next.Before cs := by
  obtain ⟨hrest, hsize⟩ := h
  have hsize' : c.size = c.index + 1 + cs.length := by
    rw [hsize, List.length_cons]
    omega
  unfold Cursor.next
  rw [hrest]
  dsimp only
  split
  · exact ⟨rfl, hsize'⟩
  · split <;> exact ⟨rfl, hsize'⟩

/-- Behind some characters is what comes after them. -/
theorem Before.advance (h : c.Before (pre ++ cs)) : (c.advance pre.length).Before cs := by
  induction pre generalizing c with
  | nil => exact h
  | cons ch pre ih => exact ih h.next

/-- The characters of one sort are taken, up to the first that is of another one. -/
theorem Before.takeWhile {p : Char → Bool} (h : c.Before (pre ++ cs)) (hpre : ∀ x ∈ pre, p x = true)
    (hcs : cs.head?.any p = false) : c.takeWhile p = pre := by
  have hstop : cs.takeWhile p = [] := by cases cs <;> simp_all
  rw [Cursor.takeWhile, h.1, List.takeWhile_append_of_pos hpre, hstop, List.append_nil]

/-- They are passed over, up to the first that is of another one. -/
theorem Before.skipWhile {p : Char → Bool} (h : c.Before (pre ++ cs)) (hpre : ∀ x ∈ pre, p x = true)
    (hcs : cs.head?.any p = false) : c.skipWhile p = c.advance pre.length := by
  rw [Cursor.skipWhile, h.takeWhile hpre hcs]

/-- Nothing is passed over if the next character is of another sort. -/
theorem Before.skipWhile_none {p : Char → Bool} (h : c.Before cs) (hcs : cs.head?.any p = false) :
    c.skipWhile p = c := by
  have hnone : c.Before ([] ++ cs) := h
  exact hnone.skipWhile (by simp) hcs

/-! ## Lines and columns -/

private theorem index_next (h : c.Before (ch :: cs)) : c.next.index = c.index + 1 := by
  unfold Cursor.next
  rw [h.1]
  dsimp only
  split
  · rfl
  · split <;> rfl

/-- The index counts the characters. -/
theorem index_advance (h : c.Before (pre ++ cs)) :
    (c.advance pre.length).index = c.index + pre.length := by
  induction pre generalizing c with
  | nil => rfl
  | cons ch pre ih =>
    have hc : c.Before (ch :: (pre ++ cs)) := h
    have hnext := index_next hc
    rw [List.length_cons, Cursor.advance, ih h.next, hnext]
    omega

/-- A line feed starts a line. -/
theorem column_next_lineFeed (h : c.Before ('\n' :: cs)) : c.next.column = 0 := by
  unfold Cursor.next
  rw [h.1]
  rfl

/-- Inside a line only a byte order mark takes up no column. -/
theorem next_of_not_break (h : c.Before (ch :: cs)) (hbreak : isBreak ch = false) :
    c.next.line = c.line ∧ c.column ≤ c.next.column ∧
      (ch ≠ byteOrderMark → c.next.column = c.column + 1) := by
  unfold Cursor.next
  rw [h.1]
  dsimp only
  rw [hbreak, Bool.false_and]
  by_cases hmark : ch = byteOrderMark
  · simp [hmark]
  · simp [hmark]

/-- Without a line break the cursor stays in its line. Each character takes a column, but for the
byte order mark. -/
theorem advance_of_not_break (h : c.Before (pre ++ cs)) (hpre : ∀ x ∈ pre, isBreak x = false) :
    (c.advance pre.length).line = c.line ∧ c.column ≤ (c.advance pre.length).column ∧
      (byteOrderMark ∉ pre → (c.advance pre.length).column = c.column + pre.length) := by
  induction pre generalizing c with
  | nil => exact ⟨rfl, Nat.le_refl _, fun _ => rfl⟩
  | cons ch pre ih =>
    have hc : c.Before (ch :: (pre ++ cs)) := h
    obtain ⟨hline, hle, hcolumn⟩ := next_of_not_break hc (hpre ch (by simp))
    obtain ⟨hline', hle', hcolumn'⟩ := ih h.next fun x hx => hpre x (by simp [hx])
    refine ⟨hline'.trans hline, Nat.le_trans hle hle', fun hmark => ?_⟩
    simp only [List.mem_cons, not_or] at hmark
    rw [List.length_cons, Cursor.advance, hcolumn' hmark.2, hcolumn (Ne.symm hmark.1)]
    omega

/-- Each space takes a column. -/
theorem advance_spaces {n : Nat} (h : c.Before (List.replicate n ' ' ++ cs)) :
    (c.advance n).Before cs ∧ (c.advance n).line = c.line ∧
      (c.advance n).column = c.column + n := by
  have hspace : ∀ x ∈ List.replicate n ' ', isBreak x = false ∧ x ≠ byteOrderMark := by
    intro x hx
    rw [List.eq_of_mem_replicate hx]
    exact ⟨by decide, by decide⟩
  have hbehind := h.advance
  obtain ⟨hline, -, hcolumn⟩ := advance_of_not_break h fun x hx => (hspace x hx).1
  rw [List.length_replicate] at hbehind hline hcolumn
  exact ⟨hbehind, hline, hcolumn fun hmark => (hspace _ hmark).2 rfl⟩

/-- All spaces are passed over. -/
theorem skipSpaces_eq {n : Nat} (h : c.Before (List.replicate n ' ' ++ cs))
    (hcs : cs.head? ≠ some ' ') : c.skipSpaces = c.advance n := by
  have hskip := h.skipWhile (p := (· = ' ')) (fun x hx => by simp [List.eq_of_mem_replicate hx])
    (by cases cs <;> simp_all)
  rwa [List.length_replicate] at hskip

/-- All spaces are taken. -/
theorem takeWhile_spaces {n : Nat} (h : c.Before (List.replicate n ' ' ++ cs))
    (hcs : cs.head? ≠ some ' ') : c.takeWhile (· = ' ') = List.replicate n ' ' :=
  h.takeWhile (fun x hx => by simp [List.eq_of_mem_replicate hx]) (by cases cs <;> simp_all)

/-! ## Line breaks and marks -/

/-- Whether a character breaks a line on its own. A carriage return may be half of a line break. -/
def EndsLine (b : Char) : Prop := isBreak b = true ∧ b ≠ '\r'

/-- What ends a line is no blank. -/
theorem EndsLine.not_blank {b : Char} (h : EndsLine b) : isBlank b = false := by
  have hspace : b ≠ ' ' := by
    rintro rfl
    exact absurd h.1 (by decide)
  have htab : b ≠ '\t' := by
    rintro rfl
    exact absurd h.1 (by decide)
  simp [isBlank, hspace, htab]

/-- A line break is read with its meaning. -/
theorem lineBreak?_of_endsLine {b : Char} (h : c.Before (b :: cs)) (hb : EndsLine b) :
    c.lineBreak? = some (breakMeaning b, c.next) := by
  unfold Cursor.lineBreak?
  rw [h.1]
  split
  · next heq => exact absurd (List.cons.inj heq).1 hb.2
  · next heq =>
    obtain ⟨rfl, rfl⟩ := List.cons.inj heq
    rw [if_pos hb.1]
  · next heq => exact absurd heq (by simp)

/-- No line break is read where none is. -/
theorem lineBreak?_eq_none (h : c.Before cs) (hcs : cs.head?.any isBreak = false) :
    c.lineBreak? = none := by
  unfold Cursor.lineBreak?
  rw [h.1]
  split
  · exact absurd hcs (by simp [isBreak])
  · next heq => rw [if_neg (by simpa using hcs)]
  · rfl

/-- A document mark starts with its sign. -/
theorem atMarkOf_eq_false {m : Char} (h : c.Before (ch :: cs)) (hm : ch ≠ m) :
    c.atMarkOf m = false := by
  unfold Cursor.atMarkOf
  rw [h.1]
  split
  · next heq => simp [← (List.cons.inj heq).1, hm]
  · rfl

/-- Only dashes and points are the marks between documents. -/
theorem atMark_eq_false (h : c.Before (ch :: cs)) (hdash : ch ≠ '-') (hpoint : ch ≠ '.') :
    c.atMark = false := by
  rw [Cursor.atMark, atMarkOf_eq_false h hdash, atMarkOf_eq_false h hpoint]
  rfl

end Cursor

end VersionGate.Yaml

import VersionGate.Proofs.Yaml.Cursor
import VersionGate.Yaml.QuotedScalar

/-!
# Reading between quotes

What reading a quoted scalar makes of the text behind its opening quote, piece by piece. A run of
blanks counts as a whole and a line break takes the blanks of the next line along, so a piece is
read with all that follows it: `Yields quote cs ls after` is about the text `cs` up to the end of
the document, of which `after` is behind the closing quote.

## Key results

- `yields_letter`, `yields_quote`, `yields_spaces`, `yields_breaks`: what stands for itself, a
  single quote, spaces, and line breaks with the blanks behind them
- `yields_sign`, `yields_code`, `yields_escapedBreak`: the escapes between double quotes
-/

namespace VersionGate.Yaml.QuotedScalar

open Text (Letter)

/-- Whether reading on inside a scalar gives the letters `ls` and goes on with `after`. -/
def Yields (quote : Char) (cs : List Char) (ls : List Letter) (after : List Char) : Prop :=
  ∀ (fuel : Nat) (c : Cursor), c.Before cs → cs.length ≤ fuel →
    ∃ d : Cursor, readInside quote fuel c = .ok (ls, d) ∧ d.Before after

variable {quote : Char} {cs after : List Char} {ls : List Letter}

/-! ## Single characters -/

/-- A quote ends the text, unless it is a single one that is doubled. -/
theorem yields_end (h : quote = '\'' → after.head? ≠ some '\'') :
    Yields quote (quote :: after) [] after := by
  intro fuel c hc hfuel
  obtain ⟨fuel, rfl⟩ : ∃ n, fuel = n + 1 := ⟨fuel - 1, by simp at hfuel; omega⟩
  have hquote : (decide (quote = '\'') && decide (after.head? = some '\'')) = false := by
    simpa using h
  refine ⟨c.next, ?_, hc.next⟩
  simp only [readInside, hc.1, if_pos, hquote, Bool.false_eq_true, if_false]

/-- A character that neither ends the scalar nor separates stands for itself. -/
theorem yields_letter {ch : Char} (hquote : ch ≠ quote) (hslash : ch = '\\' → quote ≠ '"')
    (hch : isSeparator ch = false) (h : Yields quote cs ls after) :
    Yields quote (ch :: cs) (.char ch :: ls) after := by
  intro fuel c hc hfuel
  obtain ⟨fuel, rfl⟩ : ∃ n, fuel = n + 1 := ⟨fuel - 1, by simp at hfuel; omega⟩
  obtain ⟨d, hd, hafter⟩ := h fuel c.next hc.next (by simpa using hfuel)
  have hslash' : (decide (ch = '\\') && decide (quote = '"')) = false := by simpa using hslash
  refine ⟨d, ?_, hafter⟩
  simp only [readInside, hc.1, if_neg hquote, hslash', Bool.false_eq_true, if_false, hch, hd, bind,
    Except.bind]

/-- A single quote is written twice. -/
theorem yields_quote (h : Yields '\'' cs ls after) :
    Yields '\'' ('\'' :: '\'' :: cs) (.char '\'' :: ls) after := by
  intro fuel c hc hfuel
  obtain ⟨fuel, rfl⟩ : ∃ n, fuel = n + 1 := ⟨fuel - 1, by simp at hfuel; omega⟩
  obtain ⟨d, hd, hafter⟩ := h fuel (c.advance 2) hc.next.next (by simp at hfuel; omega)
  refine ⟨d, ?_, hafter⟩
  simp only [readInside, hc.1, if_pos, List.head?_cons, decide_true, Bool.and_self, hd, bind,
    Except.bind]

/-! ## Gaps -/

private theorem isBlank_of_mem_replicate {n : Nat} :
    ∀ x ∈ List.replicate n ' ', isBlank x = true := by
  intro x hx
  rw [List.eq_of_mem_replicate hx]
  rfl

/-- A gap is read as a whole. -/
private theorem yields_gap {ch : Char} {gap rest : List Char} (hquote : isSeparator quote = false)
    (hch : isSeparator ch = true) (hshort : cs.length ≤ rest.length)
    (hgap : ∀ c : Cursor, c.Before (ch :: rest) → ∃ d, readGap c = .ok (gap, d) ∧ d.Before cs)
    (h : Yields quote cs ls after) :
    Yields quote (ch :: rest) (gap.map .char ++ ls) after := by
  intro fuel c hc hfuel
  rw [List.length_cons] at hfuel
  obtain ⟨fuel, rfl⟩ : ∃ n, fuel = n + 1 := ⟨fuel - 1, by omega⟩
  obtain ⟨d, hd, hcs⟩ := hgap c hc
  obtain ⟨e, he, hafter⟩ := h fuel d hcs (by omega)
  -- what separates is neither the quote nor a backslash, so the branch for gaps is taken
  have hne : ch ≠ quote := by
    rintro rfl
    simp [hch] at hquote
  have hslash : (decide (ch = '\\') && decide (quote = '"')) = false := by
    have : ch ≠ '\\' := by
      rintro rfl
      exact absurd hch (by decide)
    simp [this]
  refine ⟨e, ?_, hafter⟩
  simp only [readInside, hc.1, if_neg hne, hslash, Bool.false_eq_true, if_false, hch, if_true, hd,
    he, bind, Except.bind]

/-- Spaces that no line break follows stand for themselves. -/
theorem yields_spaces (hquote : isSeparator quote = false) (hcs : Solid cs) (n : Nat)
    (h : Yields quote cs ls after) :
    Yields quote (List.replicate n ' ' ++ cs) (List.replicate n (.char ' ') ++ ls) after := by
  cases n with
  | zero => exact h
  | succ n =>
    have hgap : ∀ c : Cursor, c.Before (List.replicate (n + 1) ' ' ++ cs) →
        ∃ d, readGap c = .ok (List.replicate (n + 1) ' ', d) ∧ d.Before cs := by
      intro c hc
      have hbehind := hc.advance
      have htake := hc.takeWhile isBlank_of_mem_replicate hcs.not_blank
      have hskip := hc.skipWhile isBlank_of_mem_replicate hcs.not_blank
      refine ⟨c.advance (List.replicate (n + 1) ' ').length, ?_, hbehind⟩
      simp only [readGap, htake, hskip, Cursor.lineBreak?_eq_none hbehind hcs.not_break]
    have hyields := yields_gap hquote (by decide) (by simp) hgap h
    rwa [List.map_replicate] at hyields

section Breaks

variable {indent : Nat} (hindent : 0 < indent) (hcs : Solid cs)

include hindent hcs

/-- The line behind the last break holds the blanks in front of the text. -/
theorem emptyLines_blanks (fuel : Nat) {c : Cursor}
    (hc : c.Before (List.replicate indent ' ' ++ cs)) :
    ∃ d, emptyLines (fuel + 1) c = .ok ([], d) ∧ d.Before cs := by
  -- a document mark is not indented
  have hmark : c.atMark = false := by
    obtain ⟨n, rfl⟩ : ∃ n, indent = n + 1 := ⟨indent - 1, by omega⟩
    have hspace : c.Before (' ' :: (List.replicate n ' ' ++ cs)) := hc
    exact Cursor.atMark_eq_false hspace (by decide) (by decide)
  have hbehind := hc.advance
  have hskip := hc.skipWhile isBlank_of_mem_replicate hcs.not_blank
  refine ⟨_, ?_, hbehind⟩
  simp only [emptyLines, hmark, Bool.false_eq_true, if_false, hskip,
    Cursor.lineBreak?_eq_none hbehind hcs.not_break]

/-- The empty lines behind a line break, and the blanks of the line behind them. -/
private theorem emptyLines_breaks {breaks : List Char} (hbreaks : ∀ b ∈ breaks, Cursor.EndsLine b) :
    ∀ (fuel : Nat) (c : Cursor), breaks.length < fuel →
      c.Before (breaks ++ (List.replicate indent ' ' ++ cs)) →
      ∃ d, emptyLines fuel c = .ok (breaks.map breakMeaning, d) ∧ d.Before cs := by
  induction breaks with
  | nil =>
    intro fuel c hfuel hc
    obtain ⟨fuel, rfl⟩ : ∃ n, fuel = n + 1 := ⟨fuel - 1, by simp at hfuel; omega⟩
    exact emptyLines_blanks hindent hcs fuel hc
  | cons b breaks ih =>
    intro fuel c hfuel hc
    obtain ⟨fuel, rfl⟩ : ∃ n, fuel = n + 1 := ⟨fuel - 1, by simp at hfuel; omega⟩
    have hb := hbreaks b (by simp)
    have hmark : c.atMark = false := by
      refine Cursor.atMark_eq_false hc ?_ ?_
      · rintro rfl
        exact absurd hb.1 (by decide)
      · rintro rfl
        exact absurd hb.1 (by decide)
    have hskip : c.skipWhile isBlank = c := hc.skipWhile_none (by simpa using hb.not_blank)
    -- the line is empty, and reading goes on with the next one
    obtain ⟨d, hd, hcs'⟩ := ih (fun x hx => hbreaks x (by simp [hx])) fuel c.next
      (by simpa using hfuel) hc.next
    refine ⟨d, ?_, hcs'⟩
    simp only [emptyLines, hmark, Bool.false_eq_true, if_false, hskip,
      Cursor.lineBreak?_of_endsLine hc hb, hd, bind, Except.bind, List.map_cons]

/-- Line breaks with the blanks behind them are folded. -/
theorem yields_breaks (hquote : isSeparator quote = false) (b : Char) (breaks : List Char)
    (hb : Cursor.EndsLine b) (hbreaks : ∀ x ∈ breaks, Cursor.EndsLine x)
    (h : Yields quote cs ls after) :
    Yields quote (b :: breaks ++ (List.replicate indent ' ' ++ cs))
      ((fold (breakMeaning b) (breaks.map breakMeaning)).map .char ++ ls) after := by
  refine yields_gap hquote (by simp [isSeparator, hb.1]) (by simp; omega) ?_ h
  intro c hc
  have hblank : isBlank b = false := hb.not_blank
  have hskip : c.skipWhile isBlank = c := hc.skipWhile_none (by simpa using hblank)
  have hnext : c.next.Before (breaks ++ (List.replicate indent ' ' ++ cs)) := hc.next
  obtain ⟨d, hd, hcs'⟩ := emptyLines_breaks hindent hcs hbreaks (c.next.left + 1) c.next
    (by rw [hnext.left, List.length_append]; omega) hnext
  refine ⟨d, ?_, hcs'⟩
  simp only [readGap, hskip, Cursor.lineBreak?_of_endsLine hc hb, hd, bind, Except.bind]

end Breaks

/-! ## Escapes -/

/-- An escape is read as a whole. -/
private theorem yields_escape {rest : List Char} (meaning : List Letter)
    (hshort : cs.length ≤ rest.length) (hescape : ∀ c : Cursor, c.Before rest →
      ∃ d, readEscape c = .ok (meaning, d) ∧ d.Before cs)
    (h : Yields '"' cs ls after) : Yields '"' ('\\' :: rest) (meaning ++ ls) after := by
  intro fuel c hc hfuel
  rw [List.length_cons] at hfuel
  obtain ⟨fuel, rfl⟩ : ∃ n, fuel = n + 1 := ⟨fuel - 1, by omega⟩
  obtain ⟨d, hd, hcs⟩ := hescape c.next hc.next
  obtain ⟨e, he, hafter⟩ := h fuel d hcs (by omega)
  refine ⟨e, ?_, hafter⟩
  have hne : '\\' ≠ '"' := by decide
  simp only [readInside, hc.1, if_neg hne, decide_true, Bool.and_self, if_true, hd, he, bind,
    Except.bind]

/-- A line break that is escaped goes with the blanks behind it. -/
theorem yields_escapedBreak {indent : Nat} (hindent : 0 < indent) (hcs : Solid cs)
    (h : Yields '"' cs ls after) :
    Yields '"' ('\\' :: '\n' :: (List.replicate indent ' ' ++ cs)) ls after := by
  refine yields_escape [] (by simp; omega) ?_ h
  intro c hc
  have hshort : shortEscapes.lookup '\n' = none := by decide
  have hcode : codeEscapes.lookup '\n' = none := by decide
  -- no empty lines follow, so nothing is left of the break and the blanks
  obtain ⟨d, hd, hcs'⟩ := emptyLines_blanks hindent hcs c.next.left hc.next
  refine ⟨d, ?_, hcs'⟩
  simp only [readEscape, hc.1, hshort, hcode,
    Cursor.lineBreak?_of_endsLine hc ⟨by decide, by decide⟩, hd, bind, Except.bind, List.map_nil]

/-- A short escape. -/
theorem yields_sign (sign meaning : Char) (hsign : shortEscapes.lookup sign = some meaning)
    (h : Yields '"' cs ls after) :
    Yields '"' ('\\' :: sign :: cs) (.char meaning :: ls) after := by
  refine yields_escape [.char meaning] (by simp) ?_ h
  intro c hc
  refine ⟨c.next, ?_, hc.next⟩
  simp only [readEscape, hc.1, hsign]

/-- An escape by code. -/
theorem yields_code {kind : Char} {digits : List Char} (hsign : shortEscapes.lookup kind = none)
    (hkind : codeEscapes.lookup kind = some digits.length)
    (hdigits : digits.all Text.isHexDigit = true) (hcode : Text.hexValue digits ≤ greatestCode)
    (h : Yields '"' cs ls after) :
    Yields '"' ('\\' :: kind :: (digits ++ cs)) (.ofCode (Text.hexValue digits) :: ls) after := by
  refine yields_escape [.ofCode (Text.hexValue digits)] (by simp; omega) ?_ h
  intro c hc
  have hcode' : ¬ greatestCode < Text.hexValue digits := by omega
  have hbehind : (c.advance (kind :: digits).length).Before cs := hc.advance
  refine ⟨_, ?_, hbehind⟩
  simp only [readEscape, hc.1, hsign, hkind, List.take_left, hdigits, decide_true, Bool.and_self,
    if_true, letterOfCode, if_neg hcode', bind, Except.bind, List.length_cons]

end VersionGate.Yaml.QuotedScalar

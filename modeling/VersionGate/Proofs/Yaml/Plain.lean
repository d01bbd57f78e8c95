import VersionGate.Proofs.Yaml.Runs
import VersionGate.Yaml.PlainScalar

/-!
# Plain texts read back

A plain text is words with gaps of spaces between them. It ends with the line on which its last word
stands, because the next line is not indented as far: reading goes on with what stands on that line.

## Key results

- `word_append`: a word is taken as a whole
- `yields_writeWords`: what reading makes of the runs of a plain text
- `words_runs`: the runs of a text that can be plain are words and gaps
-/

namespace VersionGate.Yaml

/-- Whether a text can stand at the start of a line: it does not go on with spaces or a line break,
and a document mark does not stand there. -/
def StartsLine (cs : List Char) : Prop :=
  cs = [] ∨ ∃ ch rest, cs = ch :: rest ∧ isSeparator ch = false ∧ ch ≠ '#' ∧ ch ≠ byteOrderMark ∧
    ch ≠ '.' ∧ (ch = '-' → rest.head? = some ' ')

namespace PlainScalar

variable {w cs after : List Char} {c : Cursor}

/-! ## Words -/

private theorem word_of_separator {ch : Char} (h : isSeparator ch = true) (rest : List Char) :
    word false (ch :: rest) = [] := by
  rw [word, h]
  rfl

/-- A word ends in front of a colon with a separator behind it. -/
theorem word_of_colon {rest : List Char} (h : endsOr isSeparator rest = true) :
    word false (':' :: rest) = [] := by
  have hends : endsOr (fun d => isSeparator d || (false && flowSigns.contains d)) rest = true := by
    simpa using h
  rw [word, hends]
  rfl

/-- A word is taken as a whole: a colon ends it only at its end. -/
theorem word_append (hw : ∀ ch ∈ w, isSeparator ch = false) (hlast : w.getLast? ≠ some ':')
    (hcs : word false cs = []) : word false (w ++ cs) = w := by
  induction w with
  | nil => exact hcs
  | cons ch w ih =>
    have hch := hw ch (by simp)
    -- a colon inside of the word has one of its characters behind it
    have hcolon : (decide (ch = ':') && endsOr
        (fun d => isSeparator d || (false && flowSigns.contains d)) (w ++ cs)) = false := by
      cases w with
      | nil =>
        have : ch ≠ ':' := by simpa using hlast
        simp [this]
      | cons d w =>
        have hd : isSeparator d = false := hw d (by simp)
        simp [endsOr, hd]
    have hlast' : w.getLast? ≠ some ':' := by
      cases w with
      | nil => simp
      | cons d w => simpa using hlast
    rw [List.cons_append, word, hch, hcolon, ih (fun x hx => hw x (by simp [hx])) hlast']
    rfl

/-! ## Gaps -/

/-- A text that neither a space nor a line break comes first in. -/
def StartsOther (cs : List Char) : Prop := cs.head? ≠ some ' ' ∧ cs.head?.any isBreak = false

/-- What is solid starts with neither a space nor a line break. -/
theorem startsOther_of_solid (h : Solid cs) : StartsOther cs := by
  refine ⟨?_, h.not_break⟩
  obtain ⟨ch, rest, rfl, hch⟩ := h
  rintro heq
  obtain rfl : ch = ' ' := by simpa using heq
  exact absurd hch (by decide)

/-- So does what starts a line. -/
theorem startsOther_of_startsLine (h : StartsLine cs) : StartsOther cs := by
  rcases h with rfl | ⟨ch, rest, rfl, hch, -⟩
  · exact ⟨by simp, by simp⟩
  · exact startsOther_of_solid (solid_cons hch rest)

/-- What starts a line is no mark between documents. -/
private theorem atMark_of_startsLine (h : StartsLine cs) (hc : c.Before cs) : c.atMark = false := by
  rcases h with rfl | ⟨ch, rest, rfl, -, -, -, hpoint, hdash⟩
  · simp [Cursor.atMark, Cursor.atMarkOf, hc.1]
  · by_cases hch : ch = '-'
    · subst hch
      -- a dash with a space behind it is no mark
      obtain ⟨rest, rfl⟩ : ∃ more, rest = ' ' :: more := by
        cases rest with
        | nil => simp at hdash
        | cons d rest => exact ⟨rest, by simpa using hdash⟩
      cases rest <;> simp [Cursor.atMark, Cursor.atMarkOf, hc.1]
    · exact Cursor.atMark_eq_false hc hch hpoint

/-- The line behind a line break holds the blanks in front of the text. -/
theorem emptyLines_blanks (fuel : Nat) {k : Nat} (hc : c.Before (List.replicate k ' ' ++ cs))
    (hmark : c.atMark = false) (hcs : StartsOther cs) (hcolumn : c.column = 0) :
    ∃ d, emptyLines (fuel + 1) c = (some [], d) ∧ d.Before cs ∧ d.column = k := by
  obtain ⟨hbehind, -, hk⟩ := Cursor.advance_spaces hc
  refine ⟨c.advance k, ?_, hbehind, by omega⟩
  simp only [emptyLines, hmark, Bool.false_eq_true, if_false, Cursor.skipSpaces_eq hc hcs.1,
    Cursor.lineBreak?_eq_none hbehind hcs.2]

/-- A gap of spaces. -/
theorem readGap_spaces {n : Nat} (hc : c.Before (List.replicate n ' ' ++ cs))
    (hcs : StartsOther cs) :
    readGap c = (List.replicate n ' ', c.advance n, false) := by
  obtain ⟨hbehind, -, -⟩ := Cursor.advance_spaces hc
  simp only [readGap, Cursor.takeWhile_spaces hc hcs.1, Cursor.skipSpaces_eq hc hcs.1,
    Cursor.lineBreak?_eq_none hbehind hcs.2]

/-- A gap of one line break and the blanks behind it. -/
private theorem readGap_break {k : Nat} (hc : c.Before ('\n' :: (List.replicate k ' ' ++ cs)))
    (hmark : 0 < k ∨ StartsLine cs) (hcs : StartsOther cs) :
    ∃ d, readGap c = ([' '], d, true) ∧ d.Before cs ∧ d.column = k := by
  have hzero : (List.replicate 0 ' ' ++ '\n' :: (List.replicate k ' ' ++ cs)).head? ≠ some ' ' := by
    simp
  have hskip : c.skipSpaces = c := Cursor.skipSpaces_eq (n := 0) hc hzero
  -- what stands at the start of the next line is a space, or what starts a line
  have hmark' : c.next.atMark = false := by
    rcases Nat.eq_zero_or_pos k with rfl | hk
    · exact atMark_of_startsLine (hmark.resolve_left (by simp)) hc.next
    · obtain ⟨n, rfl⟩ : ∃ n, k = n + 1 := ⟨k - 1, by omega⟩
      have hspace : c.next.Before (' ' :: (List.replicate n ' ' ++ cs)) := hc.next
      exact Cursor.atMark_eq_false hspace (by decide) (by decide)
  obtain ⟨d, hd, hbefore, hcolumn⟩ := emptyLines_blanks c.next.left hc.next hmark' hcs
    (Cursor.column_next_lineFeed hc)
  refine ⟨d, ?_, hbefore, hcolumn⟩
  simp [readGap, hskip, Cursor.lineBreak?_of_endsLine hc ⟨by decide, by decide⟩, hd,
    breakMeaning]

/-! ## Words and gaps -/

/-- Whether a text is a word that can stand in a plain scalar. -/
structure IsWord (w : List Char) : Prop where
  not_separator : ∀ ch ∈ w, isSeparator ch = false
  ne_nil : w ≠ []
  head : w.head? ≠ some '#'
  last : w.getLast? ≠ some ':'

/-- A word starts with no separator. -/
private theorem IsWord.solid (hw : IsWord w) (cs : List Char) : Solid (w ++ cs) := by
  cases w with
  | nil => exact absurd rfl hw.ne_nil
  | cons ch w => exact solid_cons (hw.not_separator ch (by simp)) _

/-- Inside a word the line goes on. -/
theorem IsWord.not_break (hw : IsWord w) : ∀ ch ∈ w, isBreak ch = false := by
  intro ch hch
  have := hw.not_separator ch hch
  simp only [isSeparator, Bool.or_eq_false_iff] at this
  exact this.2

variable {inner : Nat} {text : List Char}

/-- What reading on behind a word and a gap makes of them: without further words the gap is
dropped. -/
def behindGap (w gap : List Char) : List Char × Cursor × Bool → List Char × Cursor × Bool
  | ([], c, fresh) => (w, c, fresh)
  | (more, c, fresh) => (w ++ gap ++ more, c, fresh)

/-- A word is read with the gap behind it. -/
theorem readWords_word (hw : IsWord w) (hcs : word false cs = []) (hc : c.Before (w ++ cs))
    (fresh : Bool) (fuel : Nat) {gap : List Char} {d : Cursor} {broken : Bool}
    (hgap : readGap (c.advance w.length) = (gap, d, broken)) :
    readWords false inner fresh (fuel + 1) c =
      if gap.isEmpty || decide (d.column < inner) then (w, d, broken)
      else behindGap w gap (readWords false inner broken fuel d) := by
  -- the word is no comment
  have hsees : c.sees (· = '#') = false := by
    have hhead := hw.head
    rw [Cursor.sees, hc.1]
    cases w with
    | nil => exact absurd rfl hw.ne_nil
    | cons ch w => simpa using hhead
  have hword : word false c.rest = w := by
    rw [hc.1, word_append hw.not_separator hw.last hcs]
  have hne : w.isEmpty = false := by simpa using hw.ne_nil
  simp only [readWords, hsees, hword, hne, hgap, Bool.false_eq_true, if_false, Bool.not_false,
    Bool.true_and]
  rfl

/-- Whether reading on in a plain scalar gives `text` and goes on with `after`, in the next line
behind `k` blanks. -/
def YieldsWords (inner k : Nat) (cs text after : List Char) : Prop :=
  ∀ (fuel : Nat) (fresh : Bool) (c : Cursor), c.Before cs → inner ≤ c.column → cs.length < fuel →
    ∃ d, readWords false inner fresh fuel c = (text, d, true) ∧ d.Before after ∧ d.column = k

/-- The last word ends with its line. -/
private theorem yields_lastWord {k : Nat} (hw : IsWord w) (hk : k < inner)
    (hafter : StartsLine after) :
    YieldsWords inner k (w ++ '\n' :: (List.replicate k ' ' ++ after)) w after := by
  intro fuel fresh c hc _ hfuel
  obtain ⟨fuel, rfl⟩ : ∃ n, fuel = n + 1 := ⟨fuel - 1, by omega⟩
  obtain ⟨d, hgap, hbefore, hcolumn⟩ := readGap_break hc.advance (.inr hafter)
    (startsOther_of_startsLine hafter)
  refine ⟨d, ?_, hbefore, hcolumn⟩
  rw [readWords_word hw (word_of_separator (by decide) _) hc fresh fuel hgap, if_pos]
  simpa [hcolumn] using hk

/-- A word with a gap of spaces behind it. -/
private theorem yields_word_spaces {k n : Nat} (hw : IsWord w) (hn : 0 < n) (hcs : Solid cs)
    (htext : text ≠ []) (h : YieldsWords inner k cs text after) :
    YieldsWords inner k (w ++ (List.replicate n ' ' ++ cs)) (w ++ (List.replicate n ' ' ++ text))
      after := by
  intro fuel fresh c hc hinner hfuel
  obtain ⟨fuel, rfl⟩ : ∃ n, fuel = n + 1 := ⟨fuel - 1, by omega⟩
  obtain ⟨m, rfl⟩ : ∃ m, n = m + 1 := ⟨n - 1, by omega⟩
  have hgap := readGap_spaces hc.advance (startsOther_of_solid hcs)
  obtain ⟨hbehind, -, hcolumn⟩ := Cursor.advance_spaces hc.advance
  have hword := (Cursor.advance_of_not_break hc hw.not_break).2.1
  obtain ⟨d, hd, hbefore, hk⟩ := h fuel false _ hbehind (by omega)
    (by simp only [List.length_append, List.length_replicate] at hfuel ⊢; omega)
  refine ⟨d, ?_, hbefore, hk⟩
  have hnot : ¬ ((c.advance w.length).advance (m + 1)).column < inner := by omega
  rw [readWords_word hw (word_of_separator (by decide) _) hc fresh fuel hgap, hd]
  cases text with
  | nil => exact absurd rfl htext
  | cons ch text => simp [hnot, behindGap]

/-- A word at the end of a line that goes on below. -/
private theorem yields_word_break {k indent : Nat} (hw : IsWord w) (hindent : inner ≤ indent)
    (hpos : 0 < indent) (hcs : Solid cs) (htext : text ≠ [])
    (h : YieldsWords inner k cs text after) :
    YieldsWords inner k (w ++ '\n' :: (List.replicate indent ' ' ++ cs)) (w ++ ' ' :: text)
      after := by
  intro fuel fresh c hc _ hfuel
  obtain ⟨fuel, rfl⟩ : ∃ n, fuel = n + 1 := ⟨fuel - 1, by omega⟩
  obtain ⟨e, hgap, hbehind, hcolumn⟩ := readGap_break hc.advance (.inl hpos)
    (startsOther_of_solid hcs)
  obtain ⟨d, hd, hbefore, hk⟩ := h fuel true e hbehind (by omega)
    (by simp only [List.length_append, List.length_cons] at hfuel ⊢; omega)
  refine ⟨d, ?_, hbefore, hk⟩
  have hnot : ¬ e.column < inner := by omega
  rw [readWords_word hw (word_of_separator (by decide) _) hc fresh fuel hgap, hd]
  cases text with
  | nil => exact absurd rfl htext
  | cons ch text => simp [hnot, behindGap]

end PlainScalar

namespace Scalar

open PlainScalar (IsWord YieldsWords)

/-! ## The runs of a plain text -/

/-- Runs that are words with gaps of spaces between them. -/
inductive Words : List Run → Prop where
  | last {r : Run} (hr : IsWord r.chars) (htext : IsText r.first) : Words [r]
  | more {r s : Run} {rs : List Run} (hr : IsWord r.chars) (htext : IsText r.first)
      (hs : ∀ ch ∈ s.chars, ch = ' ') (h : Words rs) : Words (r :: s :: rs)

/-- Words have a character. -/
theorem Words.ne_nil {rs : List Run} (h : Words rs) : rs.flatMap Run.chars ≠ [] := by
  cases h <;> simp [Run.chars]

/-- What is written for words starts with no separator. -/
private theorem Words.solid {rs : List Run} (h : Words rs) (indent column : Nat) (mayBreak : Bool)
    (cs : List Char) :
    Solid (writeRuns indent mayBreak column (fun c => [c]) rs ++ cs) := by
  cases h with
  | last hr htext =>
    rw [writeRuns_text htext, List.flatMap_singleton', List.append_assoc]
    exact hr.solid _
  | more hr htext hs h =>
    rw [writeRuns_text htext, List.flatMap_singleton', List.append_assoc]
    exact hr.solid _

/-- What reading makes of the runs of a plain text. -/
theorem yields_writeWords {inner indent k : Nat} {after : List Char} (hinner : inner ≤ indent)
    (hk : k < inner) (hafter : StartsLine after) {rs : List Run} (h : Words rs) (mayBreak : Bool)
    (column : Nat) :
    YieldsWords inner k (writeRuns indent mayBreak column (fun c => [c]) rs
      ++ '\n' :: (List.replicate k ' ' ++ after)) (rs.flatMap Run.chars) after := by
  induction h generalizing mayBreak column with
  | @last r hr htext =>
    rw [writeRuns_text htext, List.flatMap_singleton', List.flatMap_singleton, writeRuns,
      List.append_nil]
    exact PlainScalar.yields_lastWord hr hk hafter
  | @more r s rs hr htext hs h ih =>
    have hfirst := hs s.first s.first_mem_chars
    rw [writeRuns_text htext, List.flatMap_singleton', List.flatMap_cons, List.flatMap_cons,
      List.append_assoc]
    rcases writeRuns_spaces indent (column + r.chars.length) true (fun c => [c]) rs hfirst with
      ⟨column', heq⟩ | ⟨hrest, -, column', heq⟩
    · -- the gap is written as it is
      have hpos : 0 < s.chars.length := by simp [Run.chars]
      rw [heq, chars_eq_replicate hs, List.append_assoc]
      exact PlainScalar.yields_word_spaces hr hpos (h.solid ..) h.ne_nil (ih true column')
    · -- a single space is written as a line break, which is folded to a space
      have hchars : s.chars = [' '] := by rw [Run.chars, hfirst, hrest]
      have hsolid := h.solid indent column' true ('\n' :: (List.replicate k ' ' ++ after))
      have hyields := PlainScalar.yields_word_break hr hinner (by omega) hsolid h.ne_nil
        (ih true column')
      rw [heq, hchars, newLine]
      simpa using hyields

/-- Whether runs are nothing, or a gap and words. -/
def GapAndWords (rs : List Run) : Prop :=
  rs = [] ∨ ∃ s more, rs = s :: more ∧ (∀ ch ∈ s.chars, ch = ' ') ∧ Words more

/-- A word in front of gaps and words makes words. -/
theorem Words.cons {r : Run} {rs : List Run} (hr : IsWord r.chars) (htext : IsText r.first)
    (h : GapAndWords rs) : Words (r :: rs) := by
  rcases h with rfl | ⟨s, more, rfl, hs, hmore⟩
  · exact .last hr htext
  · exact .more hr htext hs hmore

/-- Words are a word with gaps and words behind it. -/
theorem exists_of_words {rs : List Run} (h : Words rs) :
    ∃ r more, rs = r :: more ∧ IsWord r.chars ∧ IsText r.first ∧ GapAndWords more := by
  cases h with
  | last hr htext => exact ⟨_, _, rfl, hr, htext, .inl rfl⟩
  | more hr htext hs h => exact ⟨_, _, rfl, hr, htext, .inr ⟨_, _, rfl, hs, h⟩⟩

/-- What stands behind a word separates. -/
theorem GapAndWords.endsOr {rs : List Run} (h : GapAndWords rs) :
    endsOr isSeparator (rs.flatMap Run.chars) = true := by
  rcases h with rfl | ⟨s, more, rfl, hs, -⟩
  · rfl
  · have hfirst := hs s.first s.first_mem_chars
    simp [Run.chars, hfirst, Yaml.endsOr, isSeparator, isBlank]

/-- Whether a run is of text, and ends with a colon only if it is one. -/
structure IsPart (r : Run) : Prop where
  text : ∀ ch ∈ r.chars, IsText ch
  last : r.chars.getLast? = some ':' → r = ⟨':', []⟩

/-- A part that neither is a colon nor starts with a number sign is a word. -/
theorem IsPart.isWord {r : Run} (h : IsPart r) (hcolon : r ≠ ⟨':', []⟩) (hhead : r.first ≠ '#') :
    IsWord r.chars where
  not_separator ch hch := (h.text ch hch).not_separator
  ne_nil := by simp [Run.chars]
  head := by simpa [Run.chars] using hhead
  last hlast := hcolon (h.last hlast)

/-- A rest of a plain text, from somewhere inside it on. -/
structure IsRest (cs : List Char) : Prop where
  plain : ∀ c ∈ cs, c = ' ' ∨ IsText c
  last : cs.getLast? ≠ some ' '
  ends : endsPlain cs = false

/-- What is left behind a character is a rest too. -/
theorem IsRest.tail {c : Char} {cs : List Char} (h : IsRest (c :: cs)) : IsRest cs where
  plain x hx := h.plain x (by simp [hx])
  last := by
    have hlast := h.last
    cases cs with
    | nil => simp
    | cons d cs => simpa using hlast
  ends := by
    have hends := h.ends
    unfold endsPlain at hends
    exact (Bool.or_eq_false_iff.mp hends).2

/-- Inside a plain text neither a colon in front of a gap nor a number sign behind one starts a
part. -/
theorem IsRest.next {c d : Char} {cs : List Char} (h : IsRest (c :: d :: cs)) :
    (d = ':' → endsOr isSeparator cs = false) ∧ (d = '#' → isSeparator c = false) := by
  have hends := h.ends
  constructor
  · rintro rfl
    have hcolon : (endsOr isSeparator cs || endsPlain (':' :: cs)) = false := hends
    exact (Bool.or_eq_false_iff.mp hcolon).1
  · rintro rfl
    have hsign : (isSeparator c || endsPlain ('#' :: cs)) = false := hends
    exact (Bool.or_eq_false_iff.mp hsign).1

/-- Characters of a text are in one run. -/
private theorem sameRun_of_isText {c d : Char} (hc : IsText c) (hd : IsText d) :
    sameRun c d = true := by
  have hcs : (c == ' ') = false := by simpa using hc.2.1
  have hds : (d == ' ') = false := by simpa using hd.2.1
  simp [sameRun, hcs, hds, hc.2.2, hd.2.2]

/-- A space is in another run. -/
private theorem sameRun_space_of_isText {c : Char} (hc : IsText c) :
    sameRun c ' ' = false ∧ sameRun ' ' c = false := by
  simp [sameRun, hc.2.1]

/-- The rest of a text behind its first run. -/
theorem rest_of_runs {c : Char} {cs : List Char} {r : Run} {rs : List Run}
    (h : runs (c :: cs) = r :: rs) : cs = r.rest ++ rs.flatMap Run.chars := by
  have hcs := flatMap_chars_runs (c :: cs)
  rw [h, List.flatMap_cons, Run.chars, List.cons_append] at hcs
  exact (List.cons.inj hcs).2.symm

/-- A character in front joins the first run or starts one of its own. -/
private theorem runs_cons {c : Char} {cs : List Char} {r : Run} {rs : List Run}
    (h : runs cs = r :: rs) :
    runs (c :: cs) = if sameRun c r.first then ⟨c, r.chars⟩ :: rs else ⟨c, []⟩ :: r :: rs := by
  rw [runs, h]

/-- A part that is a colon comes in front of a gap or the end. -/
private theorem endsOr_of_colon {d : Char} {cs : List Char} {rs : List Run}
    (h : runs (d :: cs) = ⟨':', []⟩ :: rs) (hrs : GapAndWords rs) :
    d = ':' ∧ endsOr isSeparator cs = true := by
  refine ⟨(first_of_runs h).symm, ?_⟩
  rw [rest_of_runs h]
  exact hrs.endsOr

/-- The runs of a rest start with a gap if it does, and else with a part. Behind it are gaps and
words. -/
private theorem runs_of_isRest : ∀ {c : Char} {cs : List Char}, IsRest (c :: cs) →
    ∃ r rs, runs (c :: cs) = r :: rs ∧
      ((c = ' ' ∧ (∀ ch ∈ r.chars, ch = ' ') ∧ Words rs) ∨
        (IsText c ∧ IsPart r ∧ GapAndWords rs))
  | c, [], h => by
    refine ⟨⟨c, []⟩, [], rfl, ?_⟩
    rcases h.plain c (by simp) with rfl | hc
    · exact absurd rfl h.last
    · exact .inr ⟨hc, ⟨by simpa [Run.chars] using hc, by simp [Run.chars]⟩, .inl rfl⟩
  | c, d :: ds, h => by
    obtain ⟨r, rs, heq, hrest⟩ := runs_of_isRest h.tail
    have hfirst := first_of_runs heq
    obtain ⟨hcolon, hsign⟩ := h.next
    -- The character joins the first run of the rest if both are blank or neither is.
    rw [runs_cons heq, hfirst]
    rcases h.plain c (by simp) with rfl | hc
    · rcases hrest with ⟨rfl, hr, hrs⟩ | ⟨hd, hr, hrs⟩
      · -- one more space of a gap
        refine ⟨⟨' ', r.chars⟩, rs, if_pos (by decide), .inl ⟨rfl, ?_, hrs⟩⟩
        simpa [Run.chars] using hr
      · -- a gap in front of a part, which therefore is a word
        refine ⟨⟨' ', []⟩, r :: rs, if_neg (by simp [sameRun_space_of_isText hd]), ?_⟩
        refine .inl ⟨rfl, by simp [Run.chars], ?_⟩
        refine Words.cons (hr.isWord ?_ ?_) (hfirst ▸ hd) hrs
        · rintro rfl
          obtain ⟨hd, hends⟩ := endsOr_of_colon heq hrs
          simp [hcolon hd] at hends
        · rw [hfirst]
          rintro rfl
          exact absurd (hsign rfl) (by decide)
    · rcases hrest with ⟨rfl, hr, hrs⟩ | ⟨hd, hr, hrs⟩
      · -- a part of one character in front of a gap
        refine ⟨⟨c, []⟩, r :: rs, if_neg (by simp [sameRun_space_of_isText hc]), .inr ⟨hc, ?_, ?_⟩⟩
        · exact ⟨by simpa [Run.chars] using hc, by simp [Run.chars]⟩
        · exact .inr ⟨r, rs, rfl, hr, hrs⟩
      · -- one more character of a part
        refine ⟨⟨c, r.chars⟩, rs, if_pos (sameRun_of_isText hc hd), .inr ⟨hc, ⟨?_, ?_⟩, hrs⟩⟩
        · intro ch hch
          rcases mem_chars.mp hch with rfl | hch
          · exact hc
          · exact hr.text ch hch
        · intro hlast
          have hlast' : r.chars.getLast? = some ':' := by
            simpa [Run.chars] using hlast
          obtain rfl := hr.last hlast'
          obtain ⟨hd, hends⟩ := endsOr_of_colon heq hrs
          simp [hcolon hd] at hends

/-- A text that may be written as it is is a rest. -/
private theorem isRest_of_allowsPlain {cs : List Char} (h : allowsPlain cs = true) : IsRest cs := by
  simp only [allowsPlain, allowsSingleQuotes, Bool.and_eq_true, Bool.not_eq_true',
    List.any_eq_false, bne_iff_ne] at h
  obtain ⟨⟨⟨⟨⟨hsingle, hbreaks⟩, -⟩, hlast⟩, -⟩, hends⟩ := h
  refine ⟨fun c hc => ?_, hlast, hends⟩
  have hspecial : isSpecial c = false := by simpa using hsingle.1.1 c hc
  rcases kind_cases hspecial with hspace | hbreak | htext
  · exact .inl hspace
  · exact absurd hbreak (by simpa using hbreaks c hc)
  · exact .inr htext

/-- The first character of a plain text is no number sign, and no colon with a gap behind it. -/
theorem startsPlain_cons {c : Char} {cs : List Char} (h : startsPlain (c :: cs) = true) :
    indicators.contains c = false ∧
      ((c = '-' ∨ c = '?' ∨ c = ':') → endsOr isSeparator cs = false) := by
  unfold startsPlain at h
  split at h
  · exact absurd h (by decide)
  · exact absurd h (by decide)
  · next heq =>
    obtain ⟨rfl, rfl⟩ := List.cons.inj heq
    simp only [Bool.and_eq_true, Bool.not_eq_true'] at h
    refine ⟨h.1, fun hc => ?_⟩
    have hsign : (decide (c = '-') || decide (c = '?') || decide (c = ':')) = true := by
      simpa [or_assoc] using hc
    simpa [hsign] using h.2
  · next heq => exact absurd heq (by simp)

/-- The runs of a text that can be plain are words and gaps. -/
theorem words_runs {cs : List Char} (hne : cs ≠ []) (h : allowsPlain cs = true) :
    Words (runs cs) := by
  obtain ⟨c, cs, rfl⟩ := List.exists_cons_of_ne_nil hne
  obtain ⟨r, rs, heq, hrest⟩ := runs_of_isRest (isRest_of_allowsPlain h)
  have hfirst := first_of_runs heq
  simp only [allowsPlain, Bool.and_eq_true, bne_iff_ne] at h
  obtain ⟨⟨⟨⟨-, hhead⟩, -⟩, hstarts⟩, -⟩ := h
  obtain ⟨hindicator, hcolon⟩ := startsPlain_cons hstarts
  rw [heq]
  rcases hrest with ⟨rfl, -, -⟩ | ⟨hc, hr, hrs⟩
  · exact absurd rfl hhead
  · -- The first run is a word: neither a single colon in front of a gap, nor with the sign of a
    -- comment.
    refine Words.cons (hr.isWord ?_ ?_) (hfirst ▸ hc) hrs
    · rintro rfl
      obtain ⟨hc, hends⟩ := endsOr_of_colon heq hrs
      simp [hcolon (.inr (.inr hc))] at hends
    · rw [hfirst]
      rintro rfl
      exact absurd hindicator (by decide)

end Scalar

end VersionGate.Yaml

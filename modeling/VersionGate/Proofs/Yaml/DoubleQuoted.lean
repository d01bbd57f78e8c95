import VersionGate.Proofs.Hex
import VersionGate.Proofs.Yaml.Quoted
import VersionGate.Yaml.Scalar

/-!
# Texts between double quotes read back

Every letter comes back, whether it stands for itself or is escaped, and a line that is broken by an
escape is put together again. There is one exception. In lines that start further in than
`lineWidth` a space behind an escape gets two line breaks in front of it, and two backslashes come
together which then are read as one: `escapedBack`.

## Key results

- `yields_escape_letter`: an escape by the writer is read as its letter
- `yields_writeEscaped`: what reading makes of a text between double quotes
- `escapedBack_eq_self_iff`: when such a text comes back as it was
-/

namespace VersionGate.Text.Letter

/-- No letter has a code that is too great for an escape. -/
private theorem code_le (l : Letter) : l.code ≤ Yaml.greatestCode := by
  cases l with
  | char c =>
    have hvalid := c.valid
    simp only [code, Yaml.greatestCode]
    rcases hvalid with h | ⟨-, h⟩
    · have : c.toNat < 0xd800 := h
      omega
    · have : c.toNat < 0x110000 := h
      omega
  | half n =>
    simp only [code, firstHalf, Yaml.greatestCode]
    omega

/-- A letter is found by its code. -/
theorem ofCode_code (l : Letter) : ofCode l.code = l := by
  cases l with
  | char c =>
    have hhalf : half? firstHalf c.toNat = none := by
      -- No character has a code that stands for half of one.
      have hnot : ¬ (firstHalf ≤ c.toNat ∧ c.toNat < firstHalf + 0x800) := by
        have hvalid := c.valid
        unfold firstHalf
        rcases hvalid with h | ⟨h, -⟩
        · have : c.toNat < 0xd800 := h
          omega
        · have : 0xdfff < c.toNat := h
          omega
      simpa [half?] using hnot
    rw [ofCode, code, hhalf, Option.getD_none, Char.ofNat_toNat]
  | half n =>
    have hhalf : half? firstHalf (firstHalf + n) = some (half n) := by
      simp [half?]
    rw [ofCode, code, hhalf, Option.getD_some]

end VersionGate.Text.Letter

namespace VersionGate.Yaml.Scalar

open Text (Letter)
open QuotedScalar (Yields)

/-! ## Escapes -/

variable {cs after : List Char} {ls : List Letter}

/-- Every short escape that is written is read. -/
private theorem lookup_shortEscapes {ch sign : Char} (h : shortEscapes.lookup ch = some sign) :
    QuotedScalar.shortEscapes.lookup sign = some ch := by
  have hall : ∀ pair ∈ shortEscapes, QuotedScalar.shortEscapes.lookup pair.2 = some pair.1 := by
    decide
  obtain ⟨front, back, heq, -⟩ := List.lookup_eq_some_iff.mp h
  exact hall (ch, sign) (by simp [heq])

/-- An escape with a code gives the letter of that code. -/
private theorem yields_escapeCode (l : Letter) (h : Yields '"' cs ls after) :
    Yields '"' (escapeCode l.code ++ cs) (l :: ls) after := by
  have hcode := l.code_le
  -- the three kinds of escapes differ in the number of digits
  have hwidth : ∀ {kind : Char} {width : Nat}, QuotedScalar.shortEscapes.lookup kind = none →
      QuotedScalar.codeEscapes.lookup kind = some width → l.code < 16 ^ width →
      Yields '"' ('\\' :: kind :: ((Text.hexDigits width l.code).map Char.toUpper ++ cs))
        (l :: ls) after := by
    intro kind width hsign hkind hfits
    have hvalue : Text.hexValue ((Text.hexDigits width l.code).map Char.toUpper) = l.code := by
      rw [Text.hexValue_map_toUpper, Nat.mod_eq_of_lt hfits]
    have hlength : ((Text.hexDigits width l.code).map Char.toUpper).length = width := by
      rw [List.length_map, Text.length_hexDigits]
    have hyields := QuotedScalar.yields_code hsign (hlength ▸ hkind)
      (List.all_eq_true.mpr fun _ => Text.isHexDigit_of_mem_map_toUpper) (by rwa [hvalue]) h
    rwa [hvalue, Letter.ofCode_code] at hyields
  unfold escapeCode
  dsimp only
  split
  · exact hwidth (by decide) (by decide) (by omega)
  · split
    · exact hwidth (by decide) (by decide) (by omega)
    · refine hwidth (by decide) (by decide) ?_
      unfold greatestCode at hcode
      omega

/-- An escape by the writer is read as its letter. -/
theorem yields_escape_letter (l : Letter) (h : Yields '"' cs ls after) :
    Yields '"' (escape l ++ cs) (l :: ls) after := by
  unfold escape
  split
  · next sign heq =>
    cases l with
    | char c => exact QuotedScalar.yields_sign _ c (lookup_shortEscapes heq) h
    | half n => simp [Letter.char?] at heq
  · exact yields_escapeCode l h

/-! ## What comes back -/

/-- Whether letters start with a space that is not the last of them. -/
def startsInnerSpace : List Letter → Bool
  | .char ' ' :: _ :: _ => true
  | _ => false

/-- The letters that come back from between double quotes, where lines start with `indent` blanks.
`first` says whether nothing stands in front of them. -/
def escapedBack (indent : Nat) (first : Bool) : List Letter → List Letter
  | [] => []
  | l :: ls =>
    if !first && lineWidth ≤ indent && (literal? l).isNone && startsInnerSpace ls then
      l :: .char '\\' :: .char ' ' :: escapedBack indent false ls
    else l :: escapedBack indent false ls

/-! ## Reading -/

/-- Only characters are literal. -/
private theorem eq_of_literal? {l : Letter} {c : Char} (h : literal? l = some c) :
    l = .char c ∧ isLiteral c = true := by
  cases l with
  | char ch =>
    simp only [literal?, Letter.char?, Option.filter_some, Option.ite_none_right_eq_some,
      Option.some.injEq] at h
    obtain ⟨hliteral, rfl⟩ := h
    exact ⟨rfl, hliteral⟩
  | half n => simp [literal?, Letter.char?] at h

/-- What stands for itself is a space or separates nothing. -/
private theorem literal_cases {c : Char} (h : isLiteral c = true) :
    c ≠ '"' ∧ c ≠ '\\' ∧ (c = ' ' ∨ isSeparator c = false) := by
  have hne : ∀ ch, isLiteral ch = false → c ≠ ch := by
    rintro ch hch rfl
    simp [h] at hch
  refine ⟨hne _ (by decide), hne _ (by decide), ?_⟩
  by_cases hspace : c = ' '
  · exact .inl hspace
  · have htab := hne '\t' (by decide)
    have hfeed := hne '\n' (by decide)
    have hreturn := hne '\r' (by decide)
    have hnext := hne '\u0085' (by decide)
    have hline := hne '\u2028' (by decide)
    have hparagraph := hne '\u2029' (by decide)
    simp [isSeparator, isBlank, isBreak, hspace, htab, hfeed, hreturn, hnext, hline, hparagraph]

/-- An escape is a backslash with a sign behind it, and digits. -/
private theorem exists_escape_eq (l : Letter) :
    ∃ sign digits, escape l = '\\' :: sign :: digits := by
  unfold escape
  split
  · exact ⟨_, _, rfl⟩
  · unfold escapeCode
    dsimp only
    split
    · exact ⟨_, _, rfl⟩
    · split <;> exact ⟨_, _, rfl⟩

/-- An escape starts with no separator. -/
private theorem solid_escape (l : Letter) (rest : List Char) : Solid (escape l ++ rest) := by
  obtain ⟨sign, digits, heq⟩ := exists_escape_eq l
  rw [heq]
  exact solid_cons (by decide) _

/-- An escape has two characters at least. -/
private theorem two_le_length_escape (l : Letter) : 2 ≤ (escape l).length := by
  obtain ⟨sign, digits, heq⟩ := exists_escape_eq l
  simp [heq]

/-- What ends a line starts with a backslash. -/
private theorem solid_foldLine (indent : Nat) (next : Option Letter) (rest : List Char) :
    Solid ((foldLine indent next).1 ++ rest) := by
  unfold foldLine
  split
  · exact solid_cons (by decide) _
  · exact solid_cons (by decide) _

/-- The rest of a text that does not start with a space starts with something solid. -/
private theorem solid_writeEscaped {indent pending column : Nat} {first : Bool}
    (h : ls.head? ≠ some (.char ' ')) :
    Solid (writeEscaped indent first pending column ls ++ '"' :: after) := by
  cases ls with
  | nil => exact solid_cons (by decide) _
  | cons l ls =>
    rw [writeEscaped]
    cases hl : literal? l with
    | some c =>
      obtain ⟨rfl, hliteral⟩ := eq_of_literal? hl
      -- The only separator that is literal is the space, which is excluded.
      have hc : isSeparator c = false := by
        rcases (literal_cases hliteral).2.2 with rfl | hc
        · exact absurd rfl h
        · exact hc
      dsimp only
      split
      · -- a broken line ends with a backslash
        rw [List.append_assoc]
        exact solid_foldLine ..
      · exact solid_cons hc _
    | none =>
      dsimp only
      split
      · rw [List.append_assoc, List.append_assoc]
        exact solid_escape ..
      · rw [List.append_assoc]
        exact solid_escape ..

/-- A new line starts no further out than it is indented. -/
private theorem le_foldLine (indent : Nat) (next : Option Letter) :
    indent ≤ (foldLine indent next).2 := by
  unfold foldLine
  split
  · exact Nat.le_succ indent
  · exact Nat.le_refl indent

section Step

variable {indent : Nat} (hindent : 0 < indent)

include hindent

/-- A line that is broken in front of a space: the space is escaped. -/
private theorem yields_foldLine_space (h : Yields '"' cs ls after) :
    Yields '"' ((foldLine indent (some (.char ' '))).1 ++ ' ' :: cs) (.char ' ' :: ls) after := by
  have hspace := QuotedScalar.yields_sign ' ' ' ' (by decide) h
  have hbreak := QuotedScalar.yields_escapedBreak hindent (solid_cons (by decide) _) hspace
  simpa [foldLine, newLine] using hbreak

/-- A line that is broken in front of anything else. -/
private theorem yields_foldLine_other {next : Option Letter} (hnext : next ≠ some (.char ' '))
    (hcs : Solid cs) (h : Yields '"' cs ls after) :
    Yields '"' ((foldLine indent next).1 ++ cs) ls after := by
  have hbreak := QuotedScalar.yields_escapedBreak hindent hcs h
  simpa [foldLine, newLine, hnext] using hbreak

/-- A line that is broken twice in front of a space: the backslash that should escape the space
makes a second one with the one of the other line break. -/
private theorem yields_foldLine_twice (h : Yields '"' cs ls after) :
    Yields '"' ((foldLine indent (some (.char ' '))).1
        ++ ((foldLine indent (some (.char ' '))).1 ++ ' ' :: cs))
      (.char '\\' :: .char ' ' :: .char ' ' :: ls) after := by
  have hspace := QuotedScalar.yields_sign ' ' ' ' (by decide) h
  have hfold := QuotedScalar.yields_breaks hindent (solid_cons (by decide) _) (by decide) '\n' []
    ⟨by decide, by decide⟩ (by simp) hspace
  have hslash := QuotedScalar.yields_sign '\\' '\\' (by decide) hfold
  have hbreak := QuotedScalar.yields_escapedBreak hindent (solid_cons (by decide) _) hslash
  simpa [foldLine, newLine, QuotedScalar.fold, breakMeaning] using hbreak

end Step

/-- What reading is to make of letters, wherever in a line they are written and however many spaces
stand in front of them. -/
def ReadsBack (indent : Nat) (first : Bool) (ls : List Letter) (after : List Char) : Prop :=
  ∀ pending column n, indent ≤ column + pending →
    Yields '"'
      (List.replicate n ' ' ++ (writeEscaped indent first pending column ls ++ '"' :: after))
      (List.replicate n (.char ' ') ++ escapedBack indent first ls) after

/-- A letter that stands for itself, in front of which a line may be broken. -/
private theorem yields_literal {indent pending column n : Nat} {first : Bool} {l : Letter}
    {c : Char}
    (hindent : 0 < indent) (hl : literal? l = some c) (hcolumn : indent ≤ column + pending)
    (ih : ReadsBack indent false ls after) :
    Yields '"'
      (List.replicate n ' ' ++ (writeEscaped indent first pending column (l :: ls) ++ '"' :: after))
      (List.replicate n (.char ' ') ++ escapedBack indent first (l :: ls)) after := by
  obtain ⟨rfl, hliteral⟩ := eq_of_literal? hl
  obtain ⟨hquote, hslash, hkind⟩ := literal_cases hliteral
  have hback : escapedBack indent first (.char c :: ls) =
      .char c :: escapedBack indent false ls := by
    rw [escapedBack, hl, if_neg (by simp)]
  -- A letter other than a space is read at once. A space waits for what comes behind it.
  have hletter : ∀ {cs : List Char}, isSeparator c = false →
      Yields '"' cs (escapedBack indent false ls) after →
      Yields '"' (c :: cs) (.char c :: escapedBack indent false ls) after := fun hc h =>
    QuotedScalar.yields_letter hquote (fun heq => absurd heq hslash) hc h
  rw [hback, writeEscaped, hl]
  dsimp only
  split
  · -- the line is broken in front of the letter
    have hfold := le_foldLine indent (some (.char c))
    have hrest := ih 1 (foldLine indent (some (.char c))).2 0 (by omega)
    rw [List.append_assoc, List.cons_append]
    refine QuotedScalar.yields_spaces (by decide) (solid_foldLine ..) n ?_
    rcases hkind with rfl | hc
    · exact yields_foldLine_space hindent hrest
    · refine yields_foldLine_other hindent ?_ (solid_cons hc _) (hletter hc hrest)
      rintro heq
      obtain rfl : c = ' ' := by simpa using heq
      exact absurd hc (by decide)
  · rcases hkind with rfl | hc
    · -- one more space in front of what follows
      have hrest := ih (pending + 1) column (n + 1) (by omega)
      rw [List.replicate_succ', List.replicate_succ', List.append_assoc, List.append_assoc] at hrest
      exact hrest
    · refine QuotedScalar.yields_spaces (by decide) (solid_cons hc _) n ?_
      exact hletter hc (ih (pending + 1) column 0 (by omega))

/-- At the start of a line a space gets another line break in front of it if the line is deep and
the space is not the last letter. -/
private theorem writeEscaped_space (indent : Nat) (ls : List Letter) :
    writeEscaped indent false 0 (indent + 1) (.char ' ' :: ls) =
      if lineWidth ≤ indent ∧ startsInnerSpace (.char ' ' :: ls) = true then
        (foldLine indent (some (.char ' '))).1
          ++ ' ' :: writeEscaped indent false 1 (foldLine indent (some (.char ' '))).2 ls
      else ' ' :: writeEscaped indent false 1 (indent + 1) ls := by
  have hl : literal? (.char ' ') = some ' ' := by decide
  have hinner : startsInnerSpace (.char ' ' :: ls) = !ls.isEmpty := by cases ls <;> rfl
  have hdeep : lineWidth < indent + 1 + 0 ↔ lineWidth ≤ indent := by omega
  rw [writeEscaped, hl, hinner]
  simp [hdeep, and_comm]

/-- A line that is broken behind an escape and in front of a space. In a deep line it is broken a
second time there, unless the space is the last letter. -/
private theorem yields_brokenSpace {indent : Nat} (hindent : 0 < indent)
    (ih : ReadsBack indent false ls after) :
    Yields '"' ((foldLine indent (some (.char ' '))).1
        ++ (writeEscaped indent false 0 (indent + 1) (.char ' ' :: ls) ++ '"' :: after))
      ((if lineWidth ≤ indent ∧ startsInnerSpace (.char ' ' :: ls) = true then
          [.char '\\', .char ' '] else []) ++ .char ' ' :: escapedBack indent false ls) after := by
  rw [writeEscaped_space]
  split
  · -- the space is too far in again, although the line has just been broken for it
    have hfold := le_foldLine indent (some (.char ' '))
    rw [List.append_assoc, List.cons_append]
    exact yields_foldLine_twice hindent (ih 1 _ 0 (Nat.le_add_right_of_le hfold))
  · exact yields_foldLine_space hindent (ih 1 (indent + 1) 0 (by omega))

/-- An inner space has a letter behind it. -/
private theorem eq_cons_of_startsInnerSpace (h : startsInnerSpace ls = true) :
    ∃ l ls', ls = .char ' ' :: l :: ls' := by
  unfold startsInnerSpace at h
  split at h
  · exact ⟨_, _, rfl⟩
  · exact absurd h (by decide)

/-- Where no line is broken twice, a letter comes back alone. -/
private theorem escapedBack_cons {indent : Nat} {first : Bool} {l : Letter}
    (h : ¬ (first = false ∧ lineWidth ≤ indent ∧ startsInnerSpace ls = true)) :
    escapedBack indent first (l :: ls) = l :: escapedBack indent false ls := by
  rw [escapedBack, if_neg]
  simp only [Bool.and_eq_true, Bool.not_eq_true', decide_eq_true_eq]
  exact fun hall => h ⟨hall.1.1.1, hall.1.1.2, hall.2⟩

/-- A space behind an escape comes back with a backslash where the line is broken at it. -/
private theorem escapedBack_escape_space {indent : Nat} {l : Letter} (hl : literal? l = none) :
    escapedBack indent false (l :: .char ' ' :: ls) =
      l :: ((if lineWidth ≤ indent ∧ startsInnerSpace (.char ' ' :: ls) = true then
        [.char '\\', .char ' '] else []) ++ .char ' ' :: escapedBack indent false ls) := by
  have hspace : literal? (.char ' ') = some ' ' := by decide
  simp only [escapedBack, hl, hspace]
  by_cases hdeep : lineWidth ≤ indent ∧ startsInnerSpace (.char ' ' :: ls) = true
  · simp [hdeep]
  · rw [if_neg hdeep, if_neg (by simpa using hdeep)]
    simp

/-- A letter that is escaped, behind which a line may be broken. -/
private theorem yields_escaped {indent pending column : Nat} {first : Bool} {l : Letter}
    (hindent : 0 < indent) (hl : literal? l = none) (hcolumn : indent ≤ column + pending)
    (ih : ReadsBack indent false ls after) (ih' : ReadsBack indent false ls.tail after) :
    Yields '"' (writeEscaped indent first pending column (l :: ls) ++ '"' :: after)
      (escapedBack indent first (l :: ls)) after := by
  have hwidth := two_le_length_escape l
  rw [writeEscaped, hl]
  dsimp only
  split
  · next hbroken =>
    -- The line is broken behind the escape.
    simp only [Bool.and_eq_true, Bool.not_eq_true', decide_eq_true_eq] at hbroken
    obtain rfl : first = false := hbroken.1.1
    rw [List.append_assoc, List.append_assoc]
    by_cases hspace : ls.head? = some (.char ' ')
    · -- the break escapes the space
      obtain ⟨ls', rfl⟩ : ∃ ls', ls = .char ' ' :: ls' := by
        cases ls with
        | nil => simp at hspace
        | cons l' ls => exact ⟨ls, by simpa using hspace⟩
      rw [escapedBack_escape_space hl]
      exact yields_escape_letter l (yields_brokenSpace hindent ih')
    · have hinner : startsInnerSpace ls = false := by
        cases h : startsInnerSpace ls with
        | false => rfl
        | true =>
          obtain ⟨_, _, rfl⟩ := eq_cons_of_startsInnerSpace h
          exact absurd rfl hspace
      have hfold := le_foldLine indent ls.head?
      rw [escapedBack_cons (by simp [hinner])]
      refine yields_escape_letter l (yields_foldLine_other hindent hspace ?_ ?_)
      · exact solid_writeEscaped hspace
      · exact ih 0 _ 0 (by omega)
  · next hwhole =>
    rw [escapedBack_cons, List.append_assoc]
    · exact yields_escape_letter l (ih 0 _ 0 (by omega))
    · -- in a deep line there is no room behind an escape
      rintro ⟨rfl, hdeep, hinner⟩
      obtain ⟨_, _, rfl⟩ := eq_cons_of_startsInnerSpace hinner
      refine hwhole ?_
      simp only [Bool.not_false, List.isEmpty_cons, Bool.and_self, Bool.true_and,
        decide_eq_true_eq]
      omega

/-- What reading makes of a text between double quotes. -/
theorem yields_writeEscaped {indent : Nat} (hindent : 0 < indent) (after : List Char) :
    ∀ (ls : List Letter) (first : Bool), ReadsBack indent first ls after
  | [], first => by
    intro pending column n _
    have hend : Yields '"' ('"' :: after) [] after :=
      QuotedScalar.yields_end fun h => absurd h (by decide)
    exact QuotedScalar.yields_spaces (by decide) (solid_cons (by decide) _) n hend
  | l :: ls, first => by
    intro pending column n hcolumn
    have ih := yields_writeEscaped hindent after ls false
    cases hl : literal? l with
    | some c => exact yields_literal hindent hl hcolumn ih
    | none =>
      -- the line may be broken in front of a space, which then is gone through with the escape
      have ih' : ReadsBack indent false ls.tail after := by
        cases ls with
        | nil => exact ih
        | cons l' ls => exact yields_writeEscaped hindent after ls false
      have hsolid : Solid (writeEscaped indent first pending column (l :: ls) ++ '"' :: after) := by
        refine solid_writeEscaped ?_
        rintro h
        obtain rfl : l = .char ' ' := by simpa using h
        exact absurd hl (by decide)
      exact QuotedScalar.yields_spaces (by decide) hsolid n
        (yields_escaped hindent hl hcolumn ih ih')

/-! ## When a text comes back -/

/-- Whether behind an escape there is a space that is not the last of the letters. -/
def hasEscapedGap : List Letter → Bool
  | [] => false
  | l :: ls => (literal? l).isNone && startsInnerSpace ls || hasEscapedGap ls

/-- Behind its first letter a text comes back as it is, unless lines are broken at once and there is
a gap. -/
private theorem escapedBack_false_eq_self_iff (indent : Nat) (ls : List Letter) :
    escapedBack indent false ls = ls ↔ (lineWidth ≤ indent → hasEscapedGap ls = false) := by
  induction ls with
  | nil => simp [escapedBack, hasEscapedGap]
  | cons l ls ih =>
    by_cases hdeep : lineWidth ≤ indent
    · have hbroken : (!false && decide (lineWidth ≤ indent) && (literal? l).isNone
          && startsInnerSpace ls) = ((literal? l).isNone && startsInnerSpace ls) := by
        simp [hdeep]
      rw [escapedBack, hbroken, hasEscapedGap]
      by_cases hgap : ((literal? l).isNone && startsInnerSpace ls) = true
      · -- behind the letter comes a backslash, and not the space
        have hinner := (Bool.and_eq_true_iff.mp hgap).2
        obtain ⟨l', ls', rfl⟩ := eq_cons_of_startsInnerSpace hinner
        rw [if_pos hgap]
        simp [hdeep, hgap]
      · have hnone : ((literal? l).isNone && startsInnerSpace ls) = false := by simpa using hgap
        rw [if_neg hgap, hnone, Bool.false_or, List.cons.injEq, ih]
        simp
    · rw [escapedBack_cons fun h => hdeep h.2.1, List.cons.injEq, ih]
      simp [hdeep]

/-- A text comes back from between double quotes as it was, unless its lines are deep and behind an
escape other than the first letter there is a space other than the last. -/
theorem escapedBack_eq_self_iff (indent : Nat) (ls : List Letter) :
    escapedBack indent true ls = ls ↔ (lineWidth ≤ indent → hasEscapedGap ls.tail = false) := by
  cases ls with
  | nil => simp [escapedBack, hasEscapedGap]
  | cons l ls =>
    rw [escapedBack_cons (by simp), List.cons.injEq, escapedBack_false_eq_self_iff]
    simp

end VersionGate.Yaml.Scalar

import VersionGate.Text.Letter

/-!
# Texts of letters and texts of characters

The mark that spells halves of characters is a character like any other one where halves do not
matter. A text in which it does not occur is spelled as itself, and its letters are its characters.
Any text of characters can be spelled, and cut at a character it leaves such texts on both sides.

## Key results

- `spell_eq_self`, `letters_eq_map`: a text without the mark
- `wholes?_eq_self`: all letters of such a text are characters
- `IsWhole`: the texts that are spelled from characters, `IsWhole.of_append_cons` cuts them
- `IsSpelling`: the texts that are spelled from letters
-/

namespace VersionGate.Text

variable {cs : List Char}

/-- A text without the mark is spelled as it is. -/
theorem spell_eq_self (h : mark ∉ cs) : spell cs = cs := by
  induction cs with
  | nil => rfl
  | cons c cs ih =>
    simp only [List.mem_cons, not_or] at h
    have hc : (Letter.char c).spell = [c] := by simp [Letter.spell, Ne.symm h.1]
    rw [spell, List.flatMap_cons, hc, ← spell, ih h.2, List.singleton_append]

/-- A text without the mark has a letter for each character. -/
theorem letters_eq_map (h : mark ∉ cs) : letters cs = cs.map .char := by
  induction cs with
  | nil => rfl
  | cons c cs ih =>
    simp only [List.mem_cons, not_or] at h
    rw [letters_cons (Ne.symm h.1), ih h.2, List.map_cons]

/-- A text without the mark has nothing but whole letters. -/
theorem wholes?_eq_self (h : mark ∉ cs) : wholes? cs = some cs := by
  rw [wholes?, letters_eq_map h]
  clear h
  induction cs with
  | nil => rfl
  | cons c cs ih =>
    simp only [List.map_cons, List.mapM_cons, Letter.char?, ih]
    rfl

/-- The letters of a text that is spelled from characters. -/
private theorem letters_spell_chars (cs : List Char) : letters (spell cs) = cs.map .char := by
  rw [← letters_spell (cs.map .char), List.flatMap_map]
  rfl

/-- Spelling the letters of a text that is spelled from characters gives the text. -/
theorem spell_letters (cs : List Char) : (letters (spell cs)).flatMap Letter.spell = spell cs := by
  rw [letters_spell_chars, List.flatMap_map]
  rfl

/-! ## Whole texts -/

/-- A text that is spelled from characters, with no half of one in it. -/
def IsWhole (cs : List Char) : Prop := ∃ chars, cs = spell chars

private theorem spell_append (cs ds : List Char) : spell (cs ++ ds) = spell cs ++ spell ds :=
  List.flatMap_append

/-- A text without the mark is whole. -/
theorem isWhole_of_not_mem (h : mark ∉ cs) : IsWhole cs := ⟨cs, (spell_eq_self h).symm⟩

/-- Two whole texts are whole together. -/
theorem IsWhole.append {ds : List Char} (hcs : IsWhole cs) (hds : IsWhole ds) :
    IsWhole (cs ++ ds) := by
  obtain ⟨chars, rfl⟩ := hcs
  obtain ⟨chars', rfl⟩ := hds
  exact ⟨chars ++ chars', (spell_append chars chars').symm⟩

theorem isWhole_nil : IsWhole [] := ⟨[], rfl⟩

theorem isWhole_singleton {c : Char} (hc : c ≠ mark) : IsWhole [c] :=
  isWhole_of_not_mem (by simpa using Ne.symm hc)

theorem IsWhole.cons {c : Char} (h : IsWhole cs) (hc : c ≠ mark) : IsWhole (c :: cs) :=
  (isWhole_singleton hc).append h

/-- Whole texts in a row are whole together. -/
theorem isWhole_flatMap {α : Type} {f : α → List Char} {xs : List α}
    (h : ∀ x ∈ xs, IsWhole (f x)) : IsWhole (xs.flatMap f) := by
  induction xs with
  | nil => exact isWhole_nil
  | cons x xs ih =>
    rw [List.forall_mem_cons] at h
    exact h.1.append (ih h.2)

/-- A whole text can be cut at any character but the mark. -/
theorem IsWhole.of_append_cons {before after : List Char} {c : Char}
    (h : IsWhole (before ++ c :: after)) (hc : c ≠ mark) : IsWhole before ∧ IsWhole after := by
  obtain ⟨chars, h⟩ := h
  -- The induction is on what the text spells. A character is spelled with one character or with two
  -- marks.
  induction chars generalizing before with
  | nil => simp [spell] at h
  | cons d chars ih =>
    have hspell : spell (d :: chars) = (Letter.char d).spell ++ spell chars := rfl
    rw [hspell, Letter.spell] at h
    split at h
    · -- The two marks are both in front of the character.
      cases before with
      | nil => exact absurd (List.cons.inj h).1 hc
      | cons first before =>
        cases before with
        | nil => exact absurd (List.cons.inj (List.cons.inj h).2).1 hc
        | cons second before =>
          simp only [List.cons_append, List.nil_append, List.cons.injEq] at h
          obtain ⟨rfl, rfl, h⟩ := h
          obtain ⟨hbefore, hafter⟩ := ih h
          have hmarks : IsWhole [mark, mark] := ⟨[mark], rfl⟩
          exact ⟨hmarks.append hbefore, hafter⟩
    · next hd =>
      cases before with
      | nil =>
        obtain ⟨-, hafter⟩ := List.cons.inj h
        exact ⟨isWhole_nil, chars, hafter⟩
      | cons first before =>
        simp only [List.cons_append, List.nil_append, List.cons.injEq] at h
        obtain ⟨rfl, h⟩ := h
        obtain ⟨hbefore, hafter⟩ := ih h
        exact ⟨hbefore.cons hd, hafter⟩

/-- A text that is spelled from letters, with no mark that spells nothing. -/
def IsSpelling (cs : List Char) : Prop := (letters cs).flatMap Letter.spell = cs

instance (cs : List Char) : Decidable (IsSpelling cs) :=
  inferInstanceAs (Decidable ((letters cs).flatMap Letter.spell = cs))

end VersionGate.Text

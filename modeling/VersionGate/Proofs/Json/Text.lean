import VersionGate.Json.Text
import VersionGate.Proofs.Hex
import Mathlib.Tactic.SplitIfs

/-!
# JSON strings read back

A string that is written between quotes is read back as it was, whatever stands behind its closing
quote.

## Key results

- `codeEscape?_hexDigits`: an escape by the code of a control character is that character
- `decodeSteps_escapeChar`: one step of reading undoes the writing of one character
- `decodeString?_encoded`: reading a string undoes writing it
-/

namespace VersionGate.Json

open Text (Letter)

/-- Four digits are read back. -/
private theorem fourHex?_hexDigits (n : Nat) (rest : List Char) :
    fourHex? (Text.hexDigits 4 n ++ rest) = some (n % 0x10000, rest) := by
  have hvalue := Text.hexValue_hexDigits 4 n
  have hdigits : (Text.hexDigits 4 n).all Text.isHexDigit = true :=
    List.all_eq_true.mpr fun _ => Text.isHexDigit_of_mem_hexDigits
  match h : Text.hexDigits 4 n, Text.length_hexDigits 4 n with
  | [a, b, c, d], _ =>
    rw [h] at hvalue hdigits
    simp [fourHex?, hdigits, hvalue]

/-- The codes of control characters are no halves, so an escape that follows does not matter. -/
theorem codeEscape?_hexDigits {n : Nat} (h : n < 0x20) (rest : List Char) :
    codeEscape? (Text.hexDigits 4 n ++ rest) = some (Letter.ofCode n, rest) := by
  have hmod : n % 0x10000 = n := Nat.mod_eq_of_lt (by omega)
  have hhigh : isHighHalf n = false := by simp [isHighHalf]; omega
  simp only [codeEscape?, fourHex?_hexDigits, hmod, hhigh, Option.bind_eq_bind, Option.bind_some]
  split
  · rfl
  · rfl

private theorem spell_ofCode_control {c : Char} (h : c.toNat < 0x20) :
    (Letter.ofCode c.toNat).spell = [c] := by
  have hhalf : Letter.half? Text.firstHalf c.toNat = none := by
    have hfirst : ¬ Text.firstHalf ≤ c.toNat := by
      unfold Text.firstHalf
      omega
    simp [Letter.half?, hfirst]
  have hmark : c ≠ Text.mark := by
    rintro rfl
    exact absurd h (by decide)
  simp [Letter.ofCode, hhalf, Letter.spell, hmark]

/-! ## One character -/

variable (steps : Nat) (rest : List Char)

private theorem decodeSteps_quote : decodeSteps (steps + 1) ('"' :: rest) = some ([], rest) := rfl

/-- A character that stands for itself. -/
private theorem decodeSteps_raw {c : Char} (hquote : c ≠ '"') (hslash : c ≠ '\\')
    (hcontrol : ¬ c.toNat < 0x20) :
    decodeSteps (steps + 1) (c :: rest) =
      (decodeSteps steps rest).map fun (s, rest) => (c :: s, rest) := by
  have hraw : (c = '\\' || c.toNat < 0x20) = false := by simp [hslash, hcontrol]
  rw [decodeSteps]
  · simp only [hraw]
    cases decodeSteps steps rest with
    | none => rfl
    | some found => rfl
  all_goals simp [hquote, hslash]

/-- An escape by a letter. -/
private theorem decodeSteps_letter {c e : Char} (hcode : e ≠ 'u') (h : unescapeChar? e = some c) :
    decodeSteps (steps + 1) ('\\' :: e :: rest) =
      (decodeSteps steps rest).map fun (s, rest) => (c :: s, rest) := by
  rw [decodeSteps]
  · simp only [h, Option.bind_eq_bind, Option.bind_some]
    cases decodeSteps steps rest with
    | none => rfl
    | some found => rfl
  · simp [hcode]

/-- An escape by the code of a control character. -/
private theorem decodeSteps_code {c : Char} (h : c.toNat < 0x20) :
    decodeSteps (steps + 1) ('\\' :: 'u' :: Text.hexDigits 4 c.toNat ++ rest) =
      (decodeSteps steps rest).map fun (s, rest) => (c :: s, rest) := by
  rw [List.cons_append, List.cons_append, decodeSteps]
  simp only [codeEscape?_hexDigits h, Option.bind_eq_bind, Option.bind_some,
    spell_ofCode_control h]
  cases decodeSteps steps rest with
  | none => rfl
  | some found => rfl

/-- The three ways in which a character is written. -/
theorem escapeChar_cases (c : Char) :
    (∃ e, e ≠ 'u' ∧ unescapeChar? e = some c ∧ escapeChar c = ['\\', e])
      ∨ (c.toNat < 0x20 ∧ escapeChar c = '\\' :: 'u' :: Text.hexDigits 4 c.toNat)
      ∨ (c ≠ '"' ∧ c ≠ '\\' ∧ ¬ c.toNat < 0x20 ∧ escapeChar c = [c]) := by
  unfold escapeChar
  split_ifs
  -- the quote, the backslash and the control characters that have letters
  iterate 7 case pos h => exact .inl ⟨_, by decide, by subst h; rfl, rfl⟩
  case pos hcontrol => exact .inr (.inl ⟨hcontrol, rfl⟩)
  case neg hquote hslash _ _ _ _ _ hcontrol => exact .inr (.inr ⟨hquote, hslash, hcontrol, rfl⟩)

/-- One step of reading undoes the writing of one character. -/
theorem decodeSteps_escapeChar (c : Char) :
    decodeSteps (steps + 1) (escapeChar c ++ rest) =
      (decodeSteps steps rest).map fun (s, rest) => (c :: s, rest) := by
  rcases escapeChar_cases c with
    ⟨e, hcode, he, hc⟩ | ⟨hcontrol, hc⟩ | ⟨hquote, hslash, hcontrol, hc⟩
  · rw [hc]
    exact decodeSteps_letter steps rest hcode he
  · rw [hc]
    exact decodeSteps_code steps rest hcontrol
  · rw [hc]
    exact decodeSteps_raw steps rest hquote hslash hcontrol

/-! ## Strings -/

/-- As many steps as the string has characters, and one for the quote, are enough. -/
private theorem decodeSteps_encoded {s : List Char} (h : s.length < steps) :
    decodeSteps steps (s.flatMap escapeChar ++ '"' :: rest) = some (s, rest) := by
  induction s generalizing steps with
  | nil =>
    obtain ⟨steps, rfl⟩ : ∃ n, steps = n + 1 := ⟨steps - 1, by simp at h; omega⟩
    exact decodeSteps_quote steps rest
  | cons c s ih =>
    obtain ⟨steps, rfl⟩ : ∃ n, steps = n + 1 := ⟨steps - 1, by simp at h; omega⟩
    rw [List.flatMap_cons, List.append_assoc, decodeSteps_escapeChar, ih steps (by simpa using h)]
    rfl

/-- No character is left out. -/
private theorem length_escapeChar_pos (c : Char) : 0 < (escapeChar c).length := by
  rcases escapeChar_cases c with ⟨_, _, _, hc⟩ | ⟨_, hc⟩ | ⟨_, _, _, hc⟩ <;> simp [hc]

/-- A text is no longer than its spelling in JSON. -/
private theorem length_le_length_flatMap_escapeChar (s : List Char) :
    s.length ≤ (s.flatMap escapeChar).length := by
  induction s with
  | nil => simp
  | cons c s ih =>
    have hc := length_escapeChar_pos c
    rw [List.flatMap_cons, List.length_append, List.length_cons]
    omega

/-- Reading a string undoes writing it. -/
theorem decodeString?_encoded (s rest : List Char) :
    decodeString? (s.flatMap escapeChar ++ '"' :: rest) = some (s, rest) := by
  have hlength := length_le_length_flatMap_escapeChar s
  refine decodeSteps_encoded _ rest ?_
  rw [List.length_append, List.length_cons]
  omega

end VersionGate.Json

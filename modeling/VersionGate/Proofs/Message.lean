import VersionGate.Text.Terminal
import VersionGate.Text.Quoted
import VersionGate.Term
import VersionGate.Proofs.Hex
import VersionGate.Proofs.Decimal

/-!
# Messages stay as they are

A message loses nothing on its way to standard error unless an escape character or a carriage return
is in it. Those are not printable, and a quoted text shows what is not printable as an escape, so no
message on a malformed text can hold them, whatever the text is.

## Key results

- `Text.forTerminal_eq_self`: which texts a terminal shows as they are
- `Text.forTerminal_line`: a line of printable characters is among them
- `Text.allPrintable_quoted`: everything in a quoted text is printable
- `Malformed.allPrintable_message`: so is everything in a message on a malformed text
-/

namespace VersionGate

namespace Text

/-! ## What a terminal shows -/

/-- Without an escape character there is nothing to drop. -/
private theorem dropControls_eq_self {cs : List Char} (h : '\x1b' ∉ cs) : dropControls cs = cs := by
  induction cs with
  | nil => rw [dropControls]
  | cons c cs ih =>
    rw [List.mem_cons, not_or] at h
    rw [dropControls, ih h.2]
    rintro rest rfl
    exact absurd rfl h.1

/-- Without a carriage return there is nothing to join. -/
private theorem joinBreaks_eq_self {cs : List Char} (h : '\r' ∉ cs) : joinBreaks cs = cs := by
  induction cs with
  | nil => rfl
  | cons c cs ih =>
    rw [List.mem_cons, not_or] at h
    rw [joinBreaks, ih h.2]
    rintro rest rfl
    exact absurd rfl h.1

/-- A text without escape characters and carriage returns is shown as it is. -/
private theorem forTerminal_eq_self {s : String} (h : ∀ c ∈ s.toList, c ≠ '\x1b' ∧ c ≠ '\r') :
    forTerminal s = s := by
  have hescape : '\x1b' ∉ s.toList := fun hc => (h _ hc).1 rfl
  have hreturn : '\r' ∉ s.toList := fun hc => (h _ hc).2 rfl
  rw [forTerminal, dropControls_eq_self hescape, joinBreaks_eq_self hreturn, String.ofList_toList]

/-! ## Quoted texts -/

private theorem isPrintable_hexDigit {d : Nat} (h : d < 16) : isPrintable (hexDigit d) = true := by
  decide +revert

/-- Digits are printable. -/
private theorem isPrintable_of_mem_hexDigits {width n : Nat} {c : Char}
    (h : c ∈ hexDigits width n) :
    isPrintable c = true := by
  obtain ⟨d, hd, rfl⟩ := exists_of_mem_hexDigits h
  exact isPrintable_hexDigit hd

private theorem isPrintable_quoteFor (cs : List Char) : isPrintable (quoteFor cs) = true := by
  rw [quoteFor]
  split <;> decide

/-- An escape is printable, whatever it stands for. -/
private theorem isPrintable_of_mem_escapeUnprintable {c d : Char} (h : d ∈ escapeUnprintable c) :
    isPrintable d = true := by
  have hescape : ∃ letter width, isPrintable letter = true ∧
      escapeUnprintable c = '\\' :: letter :: hexDigits width c.toNat := by
    rw [escapeUnprintable]
    split
    · exact ⟨'x', 2, by decide, rfl⟩
    · split
      · exact ⟨'u', 4, by decide, rfl⟩
      · exact ⟨'U', 8, by decide, rfl⟩
  obtain ⟨letter, width, hletter, heq⟩ := hescape
  rw [heq, List.mem_cons, List.mem_cons] at h
  rcases h with rfl | rfl | h
  · decide
  · exact hletter
  · exact isPrintable_of_mem_hexDigits h

/-- A printable character with a backslash is printable. -/
private theorem isPrintable_of_mem_escaped {c d : Char} (hc : isPrintable c = true)
    (h : d ∈ ['\\', c]) : isPrintable d = true := by
  rw [List.mem_cons, List.mem_singleton] at h
  rcases h with rfl | rfl
  · decide
  · exact hc

/-- A character between quotes is written in printable ones. -/
private theorem isPrintable_of_mem_quotedChar {q c d : Char} (hq : isPrintable q = true)
    (h : d ∈ quotedChar q c) : isPrintable d = true := by
  rw [quotedChar] at h
  split at h
  · next hc =>
    simp only [Bool.or_eq_true, decide_eq_true_eq] at hc
    rcases hc with rfl | rfl
    · exact isPrintable_of_mem_escaped hq h
    · exact isPrintable_of_mem_escaped (by decide) h
  · split at h
    · exact isPrintable_of_mem_escaped (by decide) h
    · split at h
      · exact isPrintable_of_mem_escaped (by decide) h
      · split at h
        · exact isPrintable_of_mem_escaped (by decide) h
        · split at h
          · next hc => rwa [List.mem_singleton.mp h]
          · exact isPrintable_of_mem_escapeUnprintable h

/-- A text without characters that are not printable. -/
def AllPrintable (s : String) : Prop := s.toList.all isPrintable = true

instance (s : String) : Decidable (AllPrintable s) := inferInstanceAs (Decidable (_ = true))

private theorem allPrintable_iff {s : String} :
    AllPrintable s ↔ ∀ c ∈ s.toList, isPrintable c = true := by
  rw [AllPrintable, List.all_eq_true]

/-- Two printable texts are printable together. -/
theorem AllPrintable.append {s t : String} (hs : AllPrintable s) (ht : AllPrintable t) :
    AllPrintable (s ++ t) := by
  rw [allPrintable_iff] at hs ht ⊢
  intro c hc
  rw [String.toList_append, List.mem_append] at hc
  exact hc.elim (hs c) (ht c)

/-- Nothing is left in a quoted text that is not printable. -/
private theorem allPrintable_quoted (s : String) : AllPrintable (quoted s) := by
  rw [allPrintable_iff]
  intro c h
  have hquote := isPrintable_quoteFor s.toList
  rw [quoted, String.toList_ofList, quotedChars, List.cons_append, List.mem_cons,
    List.mem_append, List.mem_singleton, List.mem_flatMap] at h
  rcases h with rfl | ⟨l, -, h⟩ | rfl
  · exact hquote
  · cases l with
    | char d => exact isPrintable_of_mem_quotedChar hquote h
    | half n =>
      rw [shownLetter, List.mem_cons, List.mem_cons] at h
      rcases h with rfl | rfl | h
      · decide
      · decide
      · exact isPrintable_of_mem_hexDigits h
  · exact hquote

/-- A printable line is shown as it is. -/
theorem forTerminal_line {s : String} (h : AllPrintable s) :
    forTerminal (s ++ "\n") = s ++ "\n" := by
  apply forTerminal_eq_self
  intro c hc
  rw [String.toList_append, List.mem_append] at hc
  rcases hc with hc | hc
  · have hprint := allPrintable_iff.mp h c hc
    refine ⟨?_, ?_⟩
    · rintro rfl
      contradiction
    · rintro rfl
      contradiction
  · obtain rfl : c = '\n' := by simpa using hc
    decide

/-- A digit is printable. -/
private theorem isPrintable_of_isDigit {c : Char} (h : c.isDigit = true) :
    isPrintable c = true := by
  have hrange : 48 ≤ c.toNat ∧ c.toNat ≤ 57 := by
    simpa [Char.isDigit, UInt32.le_iff_toNat_le] using h
  rw [isPrintable, if_pos (by omega)]
  simp only [decide_eq_true_eq]
  omega

/-- A numeral is printable. -/
private theorem allPrintable_natText (n : Nat) : AllPrintable (Decimal.natText n) := by
  rw [allPrintable_iff]
  intro c h
  rw [Decimal.natText, String.toList_ofList] at h
  exact isPrintable_of_isDigit (Decimal.isDigit_of_mem_ofNat h)

end Text

open Text in
/-- Whatever the text is, the message that it is malformed is printable. -/
theorem Malformed.allPrintable_message (cause : Malformed) : AllPrintable cause.message := by
  cases cause with
  | noTerm => decide
  | noRequirement => decide
  | emptyRequirement => decide
  | unexpectedToken token position text =>
    have hfront : AllPrintable ("Unexpected token " ++ quoted token ++ " at position ") :=
      ((by decide : AllPrintable "Unexpected token ").append (allPrintable_quoted token)).append
        (by decide)
    exact ((hfront.append (allPrintable_natText position)).append (by decide)).append
      (allPrintable_quoted text)
  | term text | comparator text | incomplete text | modName text =>
    exact AllPrintable.append (by decide) (allPrintable_quoted text)

end VersionGate

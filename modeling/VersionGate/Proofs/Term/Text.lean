import VersionGate.Proofs.Decimal
import VersionGate.Proofs.Term

/-!
# Terms are read back

The text of a version is cut at its points into the numerals of its numbers, and no comparator is
the beginning of a version, so the spelling of a term is read as the term, as long as no numeral is
too long.

## Key results

- `Version.readChars?_text`: a version is read back from its text
- `Comparator.split_symbol`: so is the comparator in front of it
- `Term.read_text`: and a term from its spelling
- `Version.read_text`: and a version where a version on its own is wanted
-/

namespace VersionGate

/-- A version whose numerals are not too long to be read. -/
def Version.IsReadable (v : Version) : Prop := ∀ n ∈ v.numbers, n < 10 ^ Decimal.maxDigits

instance (v : Version) : Decidable v.IsReadable :=
  inferInstanceAs (Decidable (∀ n ∈ v.numbers, n < 10 ^ Decimal.maxDigits))

namespace Version

/-- A version has a number. -/
private theorem numbers_ne_nil (v : Version) : v.numbers ≠ [] := by
  cases v <;> simp [numbers]

/-- The text of a version: its numerals with points between them. -/
private theorem toList_text (v : Version) :
    v.text.toList = ['.'].intercalate (v.numbers.map Decimal.ofNat) := by
  have hnumerals : (v.numbers.map Decimal.natText).map String.toList =
      v.numbers.map Decimal.ofNat := by
    simp [Decimal.natText]
  rw [text, String.toList_intercalate, hnumerals]
  rfl

/-- A digit is no point. -/
theorem ne_point_of_isDigit {c : Char} (h : c.isDigit = true) : (c == '.') = false := by
  by_cases hc : c = '.'
  · rw [hc] at h
    contradiction
  · simpa using hc

/-- Numerals with points between them are there again when they are cut at the points. -/
theorem pieces_numerals {numerals : List (List Char)} (hne : numerals ≠ [])
    (h : ∀ digits ∈ numerals, isNumeral digits = true) :
    Text.pieces (· == '.') (['.'].intercalate numerals) = numerals := by
  apply Text.pieces_intercalate (by decide) hne
  intro digits hdigits c hc
  exact ne_point_of_isDigit ((isNumeral_iff.mp (h digits hdigits)).2 c hc)

/-- They start with a digit. -/
theorem exists_numerals_eq_cons {numerals : List (List Char)} (hne : numerals ≠ [])
    (h : ∀ digits ∈ numerals, isNumeral digits = true) :
    ∃ c cs, ['.'].intercalate numerals = c :: cs ∧ c.isDigit = true := by
  obtain ⟨digits, numerals, rfl⟩ := List.exists_cons_of_ne_nil hne
  obtain ⟨hdigits, hall⟩ := isNumeral_iff.mp (h digits (by simp))
  obtain ⟨c, cs, rfl⟩ := List.exists_cons_of_ne_nil hdigits
  have hdigit := hall c (by simp)
  cases numerals with
  | nil => exact ⟨c, cs, by simp, hdigit⟩
  | cons next numerals => exact ⟨c, _, by rw [List.intercalate_cons_cons]; rfl, hdigit⟩

/-- A number is written as a numeral. -/
private theorem isNumeral_ofNat (n : Nat) : isNumeral (Decimal.ofNat n) = true :=
  isNumeral_iff.mpr ⟨Decimal.ofNat_ne_nil n, fun _ => Decimal.isDigit_of_mem_ofNat⟩

theorem numerals_ne_nil (v : Version) : v.numbers.map Decimal.ofNat ≠ [] := by
  simpa using v.numbers_ne_nil

/-- The numbers of a version are written as numerals. -/
private theorem isNumeral_of_mem_numerals (v : Version) :
    ∀ digits ∈ v.numbers.map Decimal.ofNat, isNumeral digits = true :=
  List.forall_mem_map.mpr fun n _ => isNumeral_ofNat n

/-- Cut at its points, the text of a version is its numerals. -/
private theorem pieces_text (v : Version) :
    Text.pieces (· == '.') v.text.toList = v.numbers.map Decimal.ofNat := by
  rw [toList_text, pieces_numerals v.numerals_ne_nil v.isNumeral_of_mem_numerals]

/-- A number that is not too great is read back. -/
private theorem readNumeral_ofNat {n : Nat} (h : n < 10 ^ Decimal.maxDigits) :
    readNumeral (Decimal.ofNat n) = .ok n := by
  rw [readNumeral, Decimal.read_ofNat h]
  rfl

/-- A version comes back from its numerals. -/
private theorem ofNumerals?_ofNat {v : Version} (h : v.IsReadable) :
    ofNumerals? (v.numbers.map Decimal.ofNat) = some (.ok v) := by
  cases v with
  | major a =>
    have ha := readNumeral_ofNat (h a (by simp [numbers]))
    simp [numbers, ofNumerals?, ha, bind, Except.bind, pure, Except.pure]
  | minor a b =>
    have ha := readNumeral_ofNat (h a (by simp [numbers]))
    have hb := readNumeral_ofNat (h b (by simp [numbers]))
    simp [numbers, ofNumerals?, ha, hb, bind, Except.bind, pure, Except.pure]
  | full a b c =>
    have ha := readNumeral_ofNat (h a (by simp [numbers]))
    have hb := readNumeral_ofNat (h b (by simp [numbers]))
    have hc := readNumeral_ofNat (h c (by simp [numbers]))
    simp [numbers, ofNumerals?, ha, hb, hc, bind, Except.bind, pure, Except.pure]

/-- A version is read back from its text. -/
private theorem readChars?_text {v : Version} (h : v.IsReadable) :
    readChars? v.text.toList = some (.ok v) := by
  have hnumerals : (v.numbers.map Decimal.ofNat).all isNumeral = true :=
    List.all_eq_true.mpr v.isNumeral_of_mem_numerals
  rw [readChars?, pieces_text]
  show (if _ then _ else _) = _
  rw [if_pos hnumerals, ofNumerals?_ofNat h]

/-- The text of a version starts with a digit. -/
private theorem exists_text_eq_cons (v : Version) :
    ∃ c cs, v.text.toList = c :: cs ∧ c.isDigit = true := by
  rw [toList_text]
  exact exists_numerals_eq_cons v.numerals_ne_nil v.isNumeral_of_mem_numerals

end Version

/-- In front of a digit, a comparator is split off. -/
theorem Comparator.split_symbol (comparator : Comparator) {c : Char} (h : c.isDigit = true)
    (cs : List Char) :
    Comparator.split (comparator.symbol.toList ++ c :: cs) = (comparator, c :: cs) := by
  have hless : c ≠ '<' := by rintro rfl; contradiction
  have hgreater : c ≠ '>' := by rintro rfl; contradiction
  have hsimilar : c ≠ '≈' := by rintro rfl; contradiction
  cases comparator <;> simp [symbol, split, hless, hgreater, hsimilar]

/-- A term is read back from its spelling. -/
theorem Term.read_text {t : Term} (h : t.bound.IsReadable) : Term.read (some t.text) = .ok t := by
  obtain ⟨c, cs, htext, hdigit⟩ := t.bound.exists_text_eq_cons
  have hsplit := t.comparator.split_symbol hdigit cs
  rw [← htext] at hsplit
  rw [read, readChars, text, String.toList_append, hsplit]
  simp only [Version.readChars?_text h]
  rfl

/-- A version on its own is read back from its text. Where it has to be complete, it is. -/
theorem Version.read_text {complete : Bool} {v : Version}
    (hcomplete : complete = true → v.isComplete = true) (h : v.IsReadable) :
    Version.read complete (some v.text) = .ok v := by
  have hterm : Term.read (some v.text) = .ok ⟨.bare, v⟩ := by
    have hbare : (⟨.bare, v⟩ : Term).text = v.text := String.empty_append
    rw [← hbare]
    exact Term.read_text h
  rw [Version.read, hterm]
  simpa [bind, Except.bind] using hcomplete

end VersionGate

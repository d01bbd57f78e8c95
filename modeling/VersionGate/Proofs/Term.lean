import VersionGate.Term
import VersionGate.Proofs.Traversal

/-!
# Why a text is no term

A text that is refused as a term either has not the form of one or holds a numeral that is too long.
For the form of a version is one of one to three numerals, and the numerals are read one after the
other.

## Key results

- `Version.map_numbers_of_ofNumerals?`: a version is read as its numerals are
- `Version.readChars?_fault`: a numeral that is too long is somewhere in the text
- `Term.readChars_fault`: the two kinds of faults of `Term.readChars`
-/

namespace VersionGate

/-- The fault of a numeral of more than `Decimal.maxDigits` digits, which says how many. -/
def ReadFault.IsOverlong (fault : ReadFault) : Prop :=
  ∃ digits, Decimal.maxDigits < digits ∧ fault = .tooLong ⟨some digits⟩

/-- A text with a numeral in it that is too long. -/
def Decimal.HasLongNumeral (cs : List Char) : Prop :=
  ∃ digits, digits <:+: cs ∧ digits.all Char.isDigit = true ∧ maxDigits < digits.length

/-- A text is as long a numeral as it holds. -/
theorem Decimal.HasLongNumeral.of_infix {cs ds : List Char} (h : HasLongNumeral cs)
    (hin : cs <:+: ds) : HasLongNumeral ds := by
  obtain ⟨digits, hdigits, hall, hlong⟩ := h
  exact ⟨digits, hdigits.trans hin, hall, hlong⟩

/-- A text that is short enough has no long numeral. -/
theorem Decimal.not_hasLongNumeral {cs : List Char} (h : cs.length ≤ maxDigits) :
    ¬HasLongNumeral cs := by
  rintro ⟨digits, hdigits, -, hlong⟩
  have hle := hdigits.length_le
  omega

/-- A numeral is a row of digits that is not empty. -/
theorem Version.isNumeral_iff {digits : List Char} :
    isNumeral digits = true ↔ digits ≠ [] ∧ ∀ c ∈ digits, c.isDigit = true := by
  simp [isNumeral]

/-- A numeral that is short enough is read. -/
theorem Version.readNumeral_of_length {digits : List Char}
    (h : digits.length ≤ Decimal.maxDigits) : readNumeral digits = .ok (Decimal.value digits) := by
  rw [readNumeral, Decimal.read, if_pos h]
  rfl

/-- Reading a numeral fails only if it is too long. -/
theorem Version.readNumeral_eq_error_iff {digits : List Char} {fault : ReadFault} :
    readNumeral digits = .error fault ↔
      Decimal.maxDigits < digits.length ∧ fault = .tooLong ⟨some digits.length⟩ := by
  by_cases hlength : digits.length ≤ Decimal.maxDigits
  · simp [readNumeral_of_length hlength, Nat.not_lt.mpr hlength]
  · rw [readNumeral, Decimal.read, if_neg hlength, Except.mapError, Except.error.injEq, eq_comm]
    simp only [Nat.not_le.mp hlength, true_and]

/-- Numerals that are short enough are read one by one. -/
theorem Version.mapM_readNumeral {numerals : List (List Char)}
    (h : ∀ digits ∈ numerals, digits.length ≤ Decimal.maxDigits) :
    numerals.mapM readNumeral = .ok (numerals.map Decimal.value) := by
  rw [List.mapM_eq_ok_iff, List.forall₂_map_right_iff, List.forall₂_same]
  exact fun digits hdigits => readNumeral_of_length (h digits hdigits)

/-- One to three numerals have the form of a version, and no others have. -/
theorem Version.exists_ofNumerals?_iff {numerals : List (List Char)} :
    (∃ bound, ofNumerals? numerals = some bound) ↔ numerals ≠ [] ∧ numerals.length ≤ 3 := by
  rcases numerals with _ | ⟨x, _ | ⟨y, _ | ⟨z, _ | ⟨w, rest⟩⟩⟩⟩ <;> simp [ofNumerals?]

/-- The numbers of a version are those of its numerals, read one after the other. -/
theorem Version.map_numbers_of_ofNumerals? {numerals : List (List Char)}
    {bound : Except ReadFault Version} (h : ofNumerals? numerals = some bound) :
    bound.map numbers = numerals.mapM readNumeral := by
  rcases numerals with _ | ⟨x, _ | ⟨y, _ | ⟨z, _ | ⟨w, rest⟩⟩⟩⟩
  · contradiction
  all_goals simp only [List.mapM_cons, List.mapM_nil]
  · obtain rfl := Option.some.inj h
    cases readNumeral x <;> rfl
  · obtain rfl := Option.some.inj h
    cases readNumeral x <;> cases readNumeral y <;> rfl
  · obtain rfl := Option.some.inj h
    cases readNumeral x <;> cases readNumeral y <;> cases readNumeral z <;> rfl
  · contradiction

/-- A text that has the form of a version and is none has a numeral in it that is too long. -/
theorem Version.readChars?_fault {cs : List Char} {fault : ReadFault}
    (h : Version.readChars? cs = some (.error fault)) :
    Decimal.HasLongNumeral cs ∧ fault.IsOverlong := by
  rw [readChars?] at h
  split at h
  · next hnumerals =>
    have hread := map_numbers_of_ofNumerals? h
    rw [Except.map, eq_comm, List.mapM_eq_error_iff] at hread
    obtain ⟨before, digits, after, hsplit, -, hread⟩ := hread
    have hdigits : digits ∈ Text.pieces (· == '.') cs := by
      rw [hsplit]
      simp
    obtain ⟨hlong, hfault⟩ := readNumeral_eq_error_iff.mp hread
    have hnumeral := isNumeral_iff.mp (List.all_eq_true.mp hnumerals digits hdigits)
    exact ⟨⟨digits, Text.infix_of_mem_pieces hdigits, List.all_eq_true.mpr hnumeral.2, hlong⟩,
      digits.length, hlong, hfault⟩
  · exact nomatch h

/-- The comparator in front of a text and what is behind it make up the text. -/
theorem Comparator.symbol_append_split (cs : List Char) :
    (Comparator.split cs).1.symbol.toList ++ (Comparator.split cs).2 = cs := by
  unfold split
  split
  · exact congrArg (· ++ _) (by decide : lessEquivalent.symbol.toList = ['<', '≈'])
  · exact congrArg (· ++ _) (by decide : greaterEquivalent.symbol.toList = ['>', '≈'])
  · exact congrArg (· ++ _) (by decide : less.symbol.toList = ['<'])
  · exact congrArg (· ++ _) (by decide : greater.symbol.toList = ['>'])
  · exact congrArg (· ++ _) (by decide : equivalent.symbol.toList = ['≈'])
  · exact congrArg (· ++ _) (by decide : bare.symbol.toList = [])

/-- A text that is refused as a term has not the form of one or holds a numeral that is too long. -/
theorem Term.readChars_fault {cs : List Char} {fault : ReadFault}
    (h : Term.readChars cs = .error fault) :
    fault = .malformed (.term (String.ofList cs)) ∨
      Decimal.HasLongNumeral cs ∧ fault.IsOverlong := by
  simp only [readChars] at h
  split at h
  · exact .inl (Except.error.inj h).symm
  · next bound hbound =>
    cases bound with
    | ok bound => simp [Except.map] at h
    | error e =>
      obtain ⟨hlong, hfault⟩ := Version.readChars?_fault hbound
      rw [← Except.error.inj h]
      have hsuffix : (Comparator.split cs).2 <:+ cs := ⟨_, Comparator.symbol_append_split cs⟩
      exact .inr ⟨hlong.of_infix hsuffix.isInfix, hfault⟩

end VersionGate

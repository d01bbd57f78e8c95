import Mathlib.Algebra.Group.Nat.Defs
import VersionGate.Text.Hex

/-!
# Hexadecimal numerals

What a number is written with is read back as the number, as far as the digits go.

## Key results

- `hexValue_hexDigits`: reading the last `width` digits gives the number up to `16 ^ width`
-/

namespace VersionGate.Text

/-- A digit has the value for which it was written. -/
private theorem hexDigitValue_hexDigit {n : Nat} (h : n < 16) : hexDigitValue (hexDigit n) = n := by
  decide +revert

/-- What is written for a value is a digit. -/
private theorem isHexDigit_hexDigit {n : Nat} (h : n < 16) : isHexDigit (hexDigit n) = true := by
  decide +revert

/-- A capital digit has the value for which it was written. -/
private theorem hexDigitValue_toUpper_hexDigit {n : Nat} (h : n < 16) :
    hexDigitValue (hexDigit n).toUpper = n := by
  decide +revert

/-- A capital digit is a digit. -/
private theorem isHexDigit_toUpper_hexDigit {n : Nat} (h : n < 16) :
    isHexDigit (hexDigit n).toUpper = true := by
  decide +revert

/-- There are as many digits as were asked for. -/
theorem length_hexDigits (width n : Nat) : (hexDigits width n).length = width := by
  induction width generalizing n with
  | zero => rfl
  | succ width ih => simp [hexDigits, ih]

/-- The digits of a number are those of numbers below sixteen. -/
theorem exists_of_mem_hexDigits {width n : Nat} {c : Char} (h : c ∈ hexDigits width n) :
    ∃ d < 16, c = hexDigit d := by
  induction width generalizing n with
  | zero => simp [hexDigits] at h
  | succ width ih =>
    rw [hexDigits, List.mem_append, List.mem_singleton] at h
    rcases h with h | h
    · exact ih h
    · exact ⟨n % 16, Nat.mod_lt n (by decide), h⟩

/-- All of them are digits. -/
theorem isHexDigit_of_mem_hexDigits {width n : Nat} {c : Char} (h : c ∈ hexDigits width n) :
    isHexDigit c = true := by
  obtain ⟨d, hd, rfl⟩ := exists_of_mem_hexDigits h
  exact isHexDigit_hexDigit hd

/-- A digit more makes a number sixteen times as great. -/
private theorem hexValue_append_singleton (digits : List Char) (c : Char) :
    hexValue (digits ++ [c]) = 16 * hexValue digits + hexDigitValue c := by
  simp [hexValue]

/-- Digits that are changed in a way that keeps their values stand for the same number. -/
private theorem hexValue_map_hexDigits {f : Char → Char}
    (hf : ∀ d < 16, hexDigitValue (f (hexDigit d)) = d) (width n : Nat) :
    hexValue ((hexDigits width n).map f) = n % 16 ^ width := by
  induction width generalizing n with
  | zero => simp [hexDigits, hexValue, Nat.mod_one]
  | succ width ih =>
    calc hexValue ((hexDigits (width + 1) n).map f)
        = 16 * (n / 16 % 16 ^ width) + n % 16 := by
          rw [hexDigits, List.map_append, List.map_singleton, hexValue_append_singleton, ih,
            hf _ (Nat.mod_lt n (by decide))]
      _ = n % 16 ^ (width + 1) := by rw [Nat.pow_succ', Nat.mod_mul, Nat.add_comm]

/-- A number is read back up to what does not fit into the digits. -/
theorem hexValue_hexDigits (width n : Nat) : hexValue (hexDigits width n) = n % 16 ^ width := by
  simpa using hexValue_map_hexDigits (f := id) (fun _ hd => hexDigitValue_hexDigit hd) width n

/-! ## Capital digits -/

/-- Capital digits are digits. -/
theorem isHexDigit_of_mem_map_toUpper {width n : Nat} {c : Char}
    (h : c ∈ (hexDigits width n).map Char.toUpper) : isHexDigit c = true := by
  obtain ⟨digit, hdigit, rfl⟩ := List.mem_map.mp h
  obtain ⟨d, hd, rfl⟩ := exists_of_mem_hexDigits hdigit
  exact isHexDigit_toUpper_hexDigit hd

/-- So it is from capital digits. -/
theorem hexValue_map_toUpper (width n : Nat) :
    hexValue ((hexDigits width n).map Char.toUpper) = n % 16 ^ width :=
  hexValue_map_hexDigits (fun _ hd => hexDigitValue_toUpper_hexDigit hd) width n

end VersionGate.Text

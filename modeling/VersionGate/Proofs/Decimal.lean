import VersionGate.Text.Decimal
import Mathlib.Algebra.Group.Nat.Defs

/-!
# Numerals are read back

The numeral of a natural number is a row of ASCII digits that stands for the number, and it has at
most `Decimal.maxDigits` of them exactly when the number is below that power of ten.

## Key results

- `isDigit_of_mem_ofNat`, `ofNat_ne_nil`: what a numeral looks like
- `value_ofNat`: what it stands for
- `value_lt`: how large a number is, by its digits
- `read_ofNat`: reading a numeral that is not too long gives the number
- `lt_of_read`: no other numbers are read
-/

namespace VersionGate.Decimal

/-- A numeral holds nothing but digits. -/
theorem isDigit_of_mem_ofNat {n : Nat} {c : Char} (h : c ∈ ofNat n) : c.isDigit = true :=
  Nat.isDigit_of_mem_toDigits (by decide) (by decide) h

/-- A numeral has a digit. -/
theorem ofNat_ne_nil (n : Nat) : ofNat n ≠ [] := Nat.toDigits_ne_nil

/-- The numeral of a number stands for it. -/
theorem value_ofNat (n : Nat) : value (ofNat n) = n := Nat.ofDigitChars_ten_toDigits

private theorem digitValue_le {c : Char} (h : c.isDigit = true) : digitValue c ≤ 9 := by
  simp only [Char.isDigit, Bool.and_eq_true, decide_eq_true_eq, UInt32.le_iff_toNat_le] at h
  have hnine : c.toNat ≤ 57 := h.2
  have hzero : '0'.toNat = 48 := rfl
  unfold digitValue
  omega

/-- A number is less than the power of ten with as many zeros as it has digits. -/
private theorem foldl_digits_lt {digits : List Char} (h : ∀ c ∈ digits, c.isDigit = true)
    (n : Nat) :
    digits.foldl (fun n c => 10 * n + digitValue c) n < (n + 1) * 10 ^ digits.length := by
  induction digits generalizing n with
  | nil => simp
  | cons c digits ih =>
    rw [List.forall_mem_cons] at h
    have hc := digitValue_le h.1
    rw [List.foldl_cons, List.length_cons]
    calc digits.foldl (fun n c => 10 * n + digitValue c) (10 * n + digitValue c)
        < (10 * n + digitValue c + 1) * 10 ^ digits.length := ih h.2 _
      _ ≤ ((n + 1) * 10) * 10 ^ digits.length := Nat.mul_le_mul_right _ (by omega)
      _ = (n + 1) * 10 ^ (digits.length + 1) := by rw [Nat.pow_succ']; exact Nat.mul_assoc ..

/-- A number is below the power of ten that its digits are counted by. -/
theorem value_lt {digits : List Char} (h : ∀ c ∈ digits, c.isDigit = true) :
    value digits < 10 ^ digits.length := by
  have hlt := foldl_digits_lt h 0
  rwa [Nat.zero_add, Nat.one_mul] at hlt

/-- How long a numeral is, by the number. -/
theorem length_ofNat_le_iff {n width : Nat} (h : 0 < width) :
    (ofNat n).length ≤ width ↔ n < 10 ^ width :=
  Nat.length_toDigits_le_iff (by decide) h

/-- A numeral that is not too long is read as its number. -/
theorem read_ofNat {n : Nat} (h : n < 10 ^ maxDigits) : read (ofNat n) = .ok n := by
  have hlength : (ofNat n).length ≤ maxDigits := (length_ofNat_le_iff (by decide)).mpr h
  rw [read, if_pos hlength, value_ofNat]

/-- The numbers that are read are those of numerals that are not too long. -/
theorem lt_of_read {digits : List Char} {n : Nat} (h : ∀ c ∈ digits, c.isDigit = true)
    (hread : read digits = .ok n) : n < 10 ^ maxDigits := by
  unfold read at hread
  split at hread
  · next hlength =>
    obtain rfl := Except.ok.inj hread
    exact Nat.lt_of_lt_of_le (value_lt h) (Nat.pow_le_pow_right (by decide) hlength)
  · contradiction

end VersionGate.Decimal

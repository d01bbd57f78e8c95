import VersionGate.Comparator
import VersionGate.Version
import Mathlib.Data.List.Lex
import Mathlib.Order.Interval.Set.OrdConnected

/-!
# Complete versions in order

Complete versions are ordered by the first number in which they differ. Seen from there, a bound is
an interval: it starts at the version in which what the bound leaves open is zero, and it ends in
front of the one in which, moreover, its last number is greater by one. A version compares less than
the bound below the interval, equal in it, and greater above it, and each comparator in front of the
bound selects an interval, too.

## Key results

- `firstDifference_neg_iff`, `firstDifference_pos_iff`: comparing rows of numbers, one of which is
  shorter, and the order of such rows
- `Version.compare_neg_iff`, `Version.compare_pos_iff`: comparing a complete version with a bound
- `Comparator.accepts_compare_iff`: what a comparator selects
- `Version.sign_compare_mono`: comparing greater versions gives no smaller signs
-/

namespace VersionGate

namespace Version

/-- A version is known by its numbers. -/
theorem numbers_injective : Function.Injective numbers := by
  intro v w h
  cases v <;> cases w <;> simp_all [numbers]

/-- A version with all three numbers. -/
structure Complete where
  version : Version
  isComplete : version.isComplete = true

/-- The numbers of a complete version. -/
def Complete.numbers (v : Complete) : List Nat := v.version.numbers

/-- Complete versions with the same numbers are the same. -/
theorem Complete.numbers_injective : Function.Injective Complete.numbers := by
  rintro ⟨v, hv⟩ ⟨w, hw⟩ h
  obtain rfl : v = w := Version.numbers_injective h
  rfl

/-- The first number in which two complete versions differ decides which is the smaller one. -/
instance : LinearOrder Complete := LinearOrder.lift' Complete.numbers Complete.numbers_injective

private theorem Complete.lt_iff {v w : Complete} : v < w ↔ v.numbers < w.numbers := Iff.rfl

/-- The least complete version within a bound: what the bound leaves open is zero. -/
def lowest : Version → Complete
  | .major a => ⟨.full a 0 0, rfl⟩
  | .minor a b => ⟨.full a b 0, rfl⟩
  | .full a b c => ⟨.full a b c, rfl⟩

/-- The least complete version above a bound: the last number of the bound is greater by one, and
what the bound leaves open is zero. -/
def beyond : Version → Complete
  | .major a => ⟨.full (a + 1) 0 0, rfl⟩
  | .minor a b => ⟨.full a (b + 1) 0, rfl⟩
  | .full a b c => ⟨.full a b (c + 1), rfl⟩

/-! ## Rows of numbers -/

/-- The row in which the last number is greater by one. -/
def increaseLast : List Nat → List Nat
  | [] => []
  | [b] => [b + 1]
  | b :: bs => b :: increaseLast bs

/-- Only the last number is increased. -/
private theorem increaseLast_cons_cons (b c : Nat) (bs : List Nat) :
    increaseLast (b :: c :: bs) = b :: increaseLast (c :: bs) := rfl

private theorem firstDifference_nil (xs : List Nat) : firstDifference xs [] = 0 := by
  cases xs <;> rfl

/-- No row of numbers comes before the row of as many zeros. -/
private theorem not_lt_replicate_zero {xs : List Nat} {k : Nat} (h : xs.length = k) :
    ¬xs < List.replicate k 0 := by
  induction xs generalizing k with
  | nil =>
    subst h
    exact List.not_lt_nil _
  | cons x xs ih =>
    subst h
    rw [List.length_cons, List.replicate_succ, List.cons_lt_cons_iff]
    rintro (h | ⟨-, h⟩)
    · omega
    · exact ih rfl h

/-- A row that is at least as long as another one with something in it starts with a number. -/
private theorem exists_cons_of_length {xs bs : List Nat} {b k : Nat}
    (h : xs.length = (b :: bs).length + k) :
    ∃ y ys, xs = y :: ys ∧ ys.length = bs.length + k := by
  cases xs with
  | nil =>
    simp only [List.length_nil, List.length_cons] at h
    omega
  | cons y ys =>
    simp only [List.length_cons] at h
    exact ⟨y, ys, rfl, by omega⟩

/-- A row of numbers compares less than a shorter one when it comes before that row filled up with
zeros. -/
theorem firstDifference_neg_iff {xs bs : List Nat} {k : Nat} (hbs : bs ≠ [])
    (hlength : xs.length = bs.length + k) :
    firstDifference xs bs < 0 ↔ xs < bs ++ List.replicate k 0 := by
  induction bs generalizing xs with
  | nil => contradiction
  | cons b bs ih =>
    obtain ⟨x, xs, rfl, hxs⟩ := exists_cons_of_length hlength
    rw [List.cons_append, List.cons_lt_cons_iff, firstDifference]
    by_cases hx : x = b
    · rw [if_pos hx]
      cases bs with
      | nil =>
        -- The shorter row has stopped, and nothing but zeros is left of it.
        have hnot : ¬xs < List.replicate k 0 := not_lt_replicate_zero (by simpa using hxs)
        rw [firstDifference_nil, List.nil_append]
        simp [hx, hnot]
      | cons c bs =>
        rw [ih (by simp) hxs]
        simp [hx]
    · rw [if_neg hx]
      simp only [hx, false_and, or_false]
      omega

/-- A row of numbers compares greater than a shorter one when it does not come before that row with
its last number greater by one, filled up with zeros. -/
theorem firstDifference_pos_iff {xs bs : List Nat} {k : Nat} (hbs : bs ≠ [])
    (hlength : xs.length = bs.length + k) :
    0 < firstDifference xs bs ↔ ¬xs < increaseLast bs ++ List.replicate k 0 := by
  induction bs generalizing xs with
  | nil => contradiction
  | cons b bs ih =>
    obtain ⟨x, xs, rfl, hxs⟩ := exists_cons_of_length hlength
    rw [firstDifference]
    cases bs with
    | nil =>
      -- The last number decides, as nothing is less than zeros behind it.
      have hnot : ¬xs < List.replicate k 0 := not_lt_replicate_zero (by simpa using hxs)
      rw [increaseLast, List.singleton_append, List.cons_lt_cons_iff, firstDifference_nil]
      simp only [hnot, and_false, or_false]
      by_cases hx : x = b
      · rw [if_pos hx]
        omega
      · rw [if_neg hx]
        omega
    | cons c bs =>
      rw [increaseLast_cons_cons, List.cons_append, List.cons_lt_cons_iff]
      by_cases hx : x = b
      · rw [if_pos hx, ih (by simp) hxs]
        simp [hx]
      · rw [if_neg hx]
        simp only [hx, false_and, or_false]
        omega

/-! ## A complete version and a bound -/

private theorem Complete.length_numbers (v : Complete) : v.numbers.length = 3 := by
  obtain ⟨v, hv⟩ := v
  cases v <;> first | rfl | contradiction

/-- The lowest version has zeros for what a bound leaves open. -/
private theorem numbers_lowest (b : Version) :
    b.lowest.numbers = b.numbers ++ List.replicate (3 - b.numbers.length) 0 := by
  cases b <;> rfl

/-- The first version beyond a bound has the next number and zeros behind it. -/
private theorem numbers_beyond (b : Version) :
    b.beyond.numbers = increaseLast b.numbers ++ List.replicate (3 - b.numbers.length) 0 := by
  cases b <;> rfl

/-- A version has one to three numbers. -/
private theorem length_numbers_bounds (b : Version) :
    b.numbers ≠ [] ∧ b.numbers.length ≤ 3 := by
  cases b <;> simp [numbers]

/-- Below a bound are the versions before its least one. -/
theorem compare_neg_iff (v : Complete) (b : Version) : v.version.compare b < 0 ↔ v < b.lowest := by
  obtain ⟨hne, hle⟩ := length_numbers_bounds b
  have hlength := v.length_numbers
  rw [Complete.lt_iff, numbers_lowest]
  exact firstDifference_neg_iff hne (by show v.numbers.length = _; omega)

/-- Above a bound are the versions from the first one beyond it on. -/
private theorem compare_pos_iff (v : Complete) (b : Version) :
    0 < v.version.compare b ↔ b.beyond ≤ v := by
  obtain ⟨hne, hle⟩ := length_numbers_bounds b
  have hlength := v.length_numbers
  rw [← not_lt, Complete.lt_iff, numbers_beyond]
  exact firstDifference_pos_iff hne (by show v.numbers.length = _; omega)

/-- Comparing greater versions with a bound gives no smaller signs. -/
theorem sign_compare_mono (b : Version) {v w : Complete} (h : v ≤ w) :
    (v.version.compare b).sign ≤ (w.version.compare b).sign := by
  rcases lt_trichotomy (v.version.compare b) 0 with hv | hv | hv
  · rw [Int.sign_eq_neg_one_of_neg hv]
    have := Int.sign_trichotomy (w.version.compare b)
    omega
  · have hw : ¬w.version.compare b < 0 := by
      rw [compare_neg_iff]
      intro hw
      have hneg := (compare_neg_iff v b).mpr (lt_of_le_of_lt h hw)
      omega
    rw [hv, Int.sign_zero, Int.sign_nonneg_iff]
    omega
  · have hw : 0 < w.version.compare b :=
      (compare_pos_iff w b).mpr (le_trans ((compare_pos_iff v b).mp hv) h)
    rw [Int.sign_eq_one_of_pos hv, Int.sign_eq_one_of_pos hw]

end Version

namespace Comparator

/-- The complete versions that a comparator in front of a bound selects. -/
def interval (b : Version) : Comparator → Set Version.Complete
  | bare | equivalent => Set.Ico b.lowest b.beyond
  | greater => Set.Ici b.beyond
  | greaterEquivalent => Set.Ici b.lowest
  | less => Set.Iio b.lowest
  | lessEquivalent => Set.Iio b.beyond

/-- With two versions, all between them are selected. -/
theorem ordConnected_interval (c : Comparator) (b : Version) : (c.interval b).OrdConnected := by
  cases c with
  | bare | equivalent => exact Set.ordConnected_Ico
  | greater | greaterEquivalent => exact Set.ordConnected_Ici
  | less | lessEquivalent => exact Set.ordConnected_Iio

/-- What a comparator makes of a comparison, by the order of versions. -/
theorem accepts_compare_iff (c : Comparator) (v : Version.Complete) (b : Version) :
    c.accepts (v.version.compare b) = true ↔ v ∈ c.interval b := by
  have hneg := Version.compare_neg_iff v b
  have hpos := Version.compare_pos_iff v b
  cases c with
  | bare | equivalent =>
    rw [interval, Set.mem_Ico, ← not_lt, ← hneg, ← not_le (a := b.beyond), ← hpos]
    simp only [accepts, beq_iff_eq]
    omega
  | greater => simpa [accepts, interval] using hpos
  | greaterEquivalent =>
    rw [interval, Set.mem_Ici, ← not_lt, ← hneg]
    simp [accepts]
  | less => simpa [accepts, interval] using hneg
  | lessEquivalent =>
    rw [interval, Set.mem_Iio, ← not_le, ← hpos]
    simp [accepts]

/-- Of the three comparators that exclude each other, one accepts a comparison. -/
theorem existsUnique_accepts (difference : Int) :
    ∃! c, c ∈ [less, equivalent, greater] ∧ c.accepts difference = true := by
  refine ⟨if difference < 0 then less else if difference = 0 then equivalent else greater, ?_, ?_⟩
  · split_ifs with hneg hzero
    · simp [accepts, hneg]
    · simp [accepts, hzero]
    · have hpos : 0 < difference := by omega
      simp [accepts, hpos]
  · rintro c ⟨hc, haccepts⟩
    simp only [List.mem_cons, List.not_mem_nil, or_false] at hc
    rcases hc with rfl | rfl | rfl
    · have hneg : difference < 0 := by simpa [accepts] using haccepts
      rw [if_pos hneg]
    · have hzero : difference = 0 := by simpa [accepts] using haccepts
      rw [if_neg (by omega), if_pos hzero]
    · have hpos : 0 < difference := by simpa [accepts] using haccepts
      rw [if_neg (by omega), if_neg (by omega)]

end Comparator

end VersionGate

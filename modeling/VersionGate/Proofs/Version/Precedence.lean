import VersionGate.Proofs.Version.Order

/-!
# Comparing any two versions

Rows of numbers are compared up to the end of the shorter one. One row precedes another when they
part at some place with the smaller number in the first row, wherever the rows end, and so a row
that precedes a second one precedes whatever the second one precedes. Rows that do not part compare
equal, and this says little about a third row: `1.8.0` and `1.8.1` part, and neither parts from
`1.8`. Among complete versions, only equal ones do not part.

## Key results

- `firstDifference_neg`, `firstDifference_lt_zero_trans`, `firstDifference_eq_zero_iff`: the rules
  for rows of numbers
- `Complete.compare_neg_iff`, `Complete.compare_eq_zero_iff`: among complete versions, comparing is
  their order
- `compare_orders_versions`: the rules of comparing
-/

namespace VersionGate.Version

/-! ## Rows of numbers -/

private theorem firstDifference_self (xs : List Nat) : firstDifference xs xs = 0 := by
  induction xs with
  | nil => rfl
  | cons x xs ih => rw [firstDifference, if_pos rfl, ih]

/-- Compared the other way round, rows of numbers differ by the opposite. -/
theorem firstDifference_neg (xs ys : List Nat) :
    firstDifference xs ys = -firstDifference ys xs := by
  fun_induction firstDifference xs ys with
  | case1 xs y ys ih => rw [firstDifference, if_pos rfl, ih]
  | case2 x xs y ys hne =>
    rw [firstDifference, if_neg (Ne.symm hne)]
    omega
  | case3 xs ys hnil =>
    -- One of the rows has stopped.
    cases ys with
    | nil => rfl
    | cons y ys =>
      cases xs with
      | nil => rfl
      | cons x xs => exact absurd rfl (hnil x xs y ys rfl)

/-- What precedes a row precedes whatever the row precedes. -/
theorem firstDifference_lt_zero_trans {xs ys zs : List Nat} (hxy : firstDifference xs ys < 0)
    (hyz : firstDifference ys zs < 0) : firstDifference xs zs < 0 := by
  induction xs generalizing ys zs with
  | nil => simp [firstDifference] at hxy
  | cons x xs ih =>
    -- Rows that part have not stopped.
    cases ys with
    | nil => simp [firstDifference] at hxy
    | cons y ys =>
      cases zs with
      | nil => simp [firstDifference] at hyz
      | cons z zs =>
        rw [firstDifference] at hxy hyz ⊢
        -- Either all three rows go on, or the first number of `xs` is less than that of `zs`.
        split_ifs at hxy hyz ⊢ with hx hy hz
        · exact ih hxy hyz
        all_goals omega

/-- Rows of numbers compare equal when they agree wherever both have a number. -/
theorem firstDifference_eq_zero_iff {xs ys : List Nat} :
    firstDifference xs ys = 0 ↔ ∀ (i x y : Nat), xs[i]? = some x → ys[i]? = some y → x = y := by
  -- A position is the first one or one behind it.
  fun_induction firstDifference xs ys with
  | case1 xs y ys ih =>
    rw [ih]
    constructor
    · intro h i a b ha hb
      cases i with
      | zero =>
        rw [List.getElem?_cons_zero, Option.some.injEq] at ha hb
        rw [← ha, hb]
      | succ i => exact h i a b ha hb
    · intro h i
      exact h (i + 1)
  | case2 x xs y ys hne =>
    constructor
    · intro h
      omega
    · intro h
      exact absurd (h 0 x y rfl rfl) hne
  | case3 xs ys hnil =>
    -- one of the rows has ended, so no number is in both
    refine iff_of_true rfl fun i a b ha hb => ?_
    cases xs with
    | nil => simp at ha
    | cons x xs =>
      cases ys with
      | nil => simp at hb
      | cons y ys => exact absurd rfl (hnil x xs y ys rfl)

/-! ## Versions -/

/-- A version precedes another one when it compares less. -/
def Precedes (v w : Version) : Prop := v.compare w < 0

/-- Versions agree when each number that both have is the same. -/
def Agrees (v w : Version) : Prop :=
  ∀ i m n : Nat, v.numbers[i]? = some m → w.numbers[i]? = some n → m = n

instance : IsStrictOrder Version Precedes where
  irrefl v h := by
    rw [Precedes, compare, firstDifference_self] at h
    omega
  trans _ _ _ := firstDifference_lt_zero_trans

/-- A complete version has nothing within it but itself. -/
private theorem Complete.lowest_version (v : Complete) : v.version.lowest = v := by
  obtain ⟨v, hv⟩ := v
  cases v <;> first | rfl | contradiction

namespace Complete

/-- Among complete versions, comparing less is coming before. -/
theorem compare_neg_iff (v w : Complete) : v.version.compare w.version < 0 ↔ v < w := by
  rw [Version.compare_neg_iff, w.lowest_version]

/-- Complete versions compare equal only when they are. -/
private theorem compare_eq_zero_iff (v w : Complete) : v.version.compare w.version = 0 ↔ v = w := by
  have hflip : v.version.compare w.version = -w.version.compare v.version :=
    firstDifference_neg _ _
  have hne : v ≠ w ↔ v.version.compare w.version < 0 ∨ w.version.compare v.version < 0 := by
    rw [compare_neg_iff, compare_neg_iff, lt_or_lt_iff_ne]
  rw [← not_iff_not, ← ne_eq v, hne]
  omega

/-- A comparison of complete versions is not positive exactly if they are in order. -/
private theorem compare_nonpos_iff (v w : Complete) : v.version.compare w.version ≤ 0 ↔ v ≤ w := by
  have hle : v ≤ w ↔ v.version.compare w.version < 0 ∨ v.version.compare w.version = 0 := by
    rw [compare_neg_iff, compare_eq_zero_iff, le_iff_lt_or_eq]
  rw [hle]
  omega

end Complete

/-- Compared the other way round, versions differ by the opposite, and a version compares equal to
itself. Comparing less is a strict order of all versions, complete or not, while a version can
compare equal to two that differ. Versions compare equal exactly if they agree on the numbers that
both have. Among complete versions, comparing is a linear order, in which only a version itself
compares equal to it. -/
theorem compare_orders_versions :
    (∀ v w : Version, v.compare w = -w.compare v) ∧
    (∀ v : Version, v.compare v = 0) ∧
    IsStrictOrder Version Precedes ∧
    (∃ u v w : Version, u.compare v = 0 ∧ v.compare w = 0 ∧ u.compare w ≠ 0) ∧
    (∀ v w : Version, v.compare w = 0 ↔ v.Agrees w) ∧
    IsLinearOrder Complete (fun v w => v.version.compare w.version ≤ 0) ∧
    ∀ v w : Complete, v.version.compare w.version = 0 ↔ v.version = w.version := by
  refine ⟨fun v w => firstDifference_neg _ _, fun v => firstDifference_self _, inferInstance,
    ⟨.full 1 8 0, .minor 1 8, .full 1 8 1, by decide, by decide, by decide⟩,
    fun v w => firstDifference_eq_zero_iff, ?_, fun v w => ?_⟩
  · simp only [Complete.compare_nonpos_iff]
    infer_instance
  · rw [Complete.compare_eq_zero_iff]
    exact ⟨congrArg Complete.version, fun h => Complete.numbers_injective (congrArg numbers h)⟩

/-- Versions of different lengths: `1.7` precedes `1.8.1`, which precedes `2`. -/
theorem compare_orders_versions_of_each_length :
    Precedes (.minor 1 7) (.full 1 8 1) ∧ Precedes (.full 1 8 1) (.major 2) ∧
      Precedes (.minor 1 7) (.major 2) := by
  obtain ⟨-, -, horder, -⟩ := compare_orders_versions
  have hfirst : (Version.minor 1 7).compare (.full 1 8 1) < 0 := by decide
  have hsecond : (Version.full 1 8 1).compare (.major 2) < 0 := by decide
  exact ⟨hfirst, hsecond, horder.trans _ _ _ hfirst hsecond⟩

end VersionGate.Version

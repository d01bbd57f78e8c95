import Mathlib.Data.List.Forall2

/-!
# Going on until something fails

What `List.mapM` and `List.forM` do in `Except`: they succeed when every step does and otherwise
fail as the first step that does not succeed.

## Key results

- `Except.bind_eq_ok_iff`, `Except.bind_eq_error_iff`: two steps, one after the other
- `List.mapM_eq_error_iff`: the fault is that of the leftmost element that has one
- `List.mapM_eq_ok_iff`: the results are those of the elements, one by one
- `List.exists_mapM_eq_ok_iff`: there are results when every element has one
- `List.forM_bind_eq_error`: steps that can fail in one way only
- `List.mapM_flatten_except`: a row of rows is gone through as one row
-/

variable {α β γ ε : Type}

namespace Except

/-- A step that does not fail succeeds. -/
private theorem exists_ok_iff {x : Except ε α} : (∃ a, x = .ok a) ↔ ∀ fault, x ≠ .error fault := by
  cases x <;> simp

/-- Two steps succeed when the second one does with what the first one gives. -/
theorem bind_eq_ok_iff {x : Except ε α} {next : α → Except ε β} {b : β} :
    (x >>= next) = .ok b ↔ ∃ a, x = .ok a ∧ next a = .ok b := by
  cases x <;> simp [bind, Except.bind]

/-- Two steps fail as the first one does, or else as the second one. -/
theorem bind_eq_error_iff {x : Except ε α} {next : α → Except ε β} {fault : ε} :
    (x >>= next) = .error fault ↔ x = .error fault ∨ ∃ a, x = .ok a ∧ next a = .error fault := by
  cases x <;> simp [bind, Except.bind]

end Except

namespace List

variable {f : α → Except ε β}

/-- Behind elements that succeed, the first that fails decides. -/
private theorem mapM_append_cons_of_error {before : List α} {x : α} {fault : ε}
    (hbefore : ∀ y ∈ before, ∃ b, f y = .ok b) (hx : f x = .error fault) (after : List α) :
    (before ++ x :: after).mapM f = .error fault := by
  induction before with
  | nil => simp [hx, bind, Except.bind]
  | cons y before ih =>
    obtain ⟨b, hb⟩ := hbefore y (by simp)
    have htail := ih fun z hz => hbefore z (by simp [hz])
    simp only [cons_append, mapM_cons, hb, htail, bind, Except.bind]

/-- Going through a row fails as its leftmost element that fails. -/
theorem mapM_eq_error_iff {xs : List α} {fault : ε} :
    xs.mapM f = .error fault ↔
      ∃ before x after, xs = before ++ x :: after ∧
        (∀ y ∈ before, ∃ b, f y = .ok b) ∧ f x = .error fault := by
  constructor
  · intro h
    induction xs with
    | nil => simp [pure, Except.pure] at h
    | cons y xs ih =>
      rw [mapM_cons] at h
      cases hy : f y with
      | error e =>
        simp only [hy, bind, Except.bind, Except.error.injEq] at h
        exact ⟨[], y, xs, rfl, by simp, by rw [hy, h]⟩
      | ok b =>
        cases hxs : xs.mapM f with
        | ok bs => simp [hy, hxs, bind, Except.bind, pure, Except.pure] at h
        | error e =>
          simp only [hy, hxs, bind, Except.bind, Except.error.injEq] at h
          obtain ⟨before, x, after, hsplit, hbefore, hx⟩ := ih (by rw [hxs, h])
          -- the first element succeeds, and the leftmost fault is among the others
          refine ⟨y :: before, x, after, by rw [hsplit, cons_append], ?_, hx⟩
          intro z hz
          rcases mem_cons.mp hz with rfl | hz
          · exact ⟨b, hy⟩
          · exact hbefore z hz
  · rintro ⟨before, x, after, rfl, hbefore, hx⟩
    exact mapM_append_cons_of_error hbefore hx after

/-- Which fault going through a row comes to depends on the faults of its elements alone. -/
theorem mapM_congr_error {g : α → Except ε γ}
    (h : ∀ x fault, f x = .error fault ↔ g x = .error fault) (xs : List α) (fault : ε) :
    xs.mapM f = .error fault ↔ xs.mapM g = .error fault := by
  have hok : ∀ x, (∃ b, f x = .ok b) ↔ ∃ c, g x = .ok c := by
    intro x
    rw [Except.exists_ok_iff, Except.exists_ok_iff]
    exact forall_congr' fun fault => not_congr (h x fault)
  simp only [mapM_eq_error_iff, hok, h]

/-- Going through a row succeeds with the results of its elements. -/
theorem mapM_eq_ok_iff {xs : List α} {ys : List β} :
    xs.mapM f = .ok ys ↔ Forall₂ (fun x y => f x = .ok y) xs ys := by
  induction xs generalizing ys with
  | nil => simp [pure, Except.pure, eq_comm]
  | cons x xs ih =>
    rw [mapM_cons]
    cases hx : f x with
    | error e => simp [hx, bind, Except.bind, forall₂_cons_left_iff]
    | ok b =>
      simp only [bind, Except.bind, forall₂_cons_left_iff, hx, Except.ok.injEq, ← ih]
      cases hxs : xs.mapM f with
      | error e => simp
      | ok bs => simp [pure, Except.pure, eq_comm]

/-- Each element of a row has something that goes with it exactly if there is a row of such. -/
theorem exists_forall₂_iff {r : α → β → Prop} {xs : List α} :
    (∃ ys, Forall₂ r xs ys) ↔ ∀ x ∈ xs, ∃ y, r x y := by
  induction xs with
  | nil => simp
  | cons x xs ih =>
    rw [forall_mem_cons, ← ih]
    simp only [forall₂_cons_left_iff]
    constructor
    · rintro ⟨-, y, ys, hy, hys, rfl⟩
      exact ⟨⟨y, hy⟩, ys, hys⟩
    · rintro ⟨⟨y, hy⟩, ys, hys⟩
      exact ⟨y :: ys, y, ys, hy, hys, rfl⟩

/-- Going through a row succeeds when every element does. -/
theorem exists_mapM_eq_ok_iff {xs : List α} :
    (∃ ys, xs.mapM f = .ok ys) ↔ ∀ x ∈ xs, ∃ y, f x = .ok y := by
  simp only [mapM_eq_ok_iff, exists_forall₂_iff]

/-- Rows that agree one by one in what is made of them come to the same. -/
theorem mapM_congr_forall₂ {xs ys : List α} (h : Forall₂ (fun x y => f x = f y) xs ys) :
    xs.mapM f = ys.mapM f := by
  induction h with
  | nil => rfl
  | cons hx _ ih => rw [mapM_cons, mapM_cons, hx, ih]

/-- Steps that all succeed. -/
theorem forM_eq_ok {f : α → Except ε PUnit} {xs : List α} (h : ∀ x ∈ xs, f x = .ok ()) :
    xs.forM f = .ok () := by
  induction xs with
  | nil => rfl
  | cons x xs ih =>
    rw [forall_mem_cons] at h
    rw [List.forM, h.1]
    exact ih h.2

/-- If some steps can fail in one way only, and what follows them fails in this way, it does not
matter whether one of them fails. -/
theorem forM_bind_eq_error {f : α → Except ε PUnit} {xs : List α} {next : PUnit → Except ε β}
    {fault : ε} (h : ∀ x ∈ xs, f x = .ok () ∨ f x = .error fault)
    (hnext : next () = .error fault) : (xs.forM f >>= next) = .error fault := by
  induction xs with
  | nil => exact hnext
  | cons x xs ih =>
    rw [forall_mem_cons] at h
    rw [List.forM]
    rcases h.1 with hx | hx
    · rw [hx]
      exact ih h.2
    · rw [hx]
      rfl

/-- In rows that agree one by one, every element on the right has its own on the left. -/
theorem Forall₂.exists_of_mem_right {r : α → β → Prop} {xs : List α} {ys : List β}
    (h : Forall₂ r xs ys) {y : β} (hy : y ∈ ys) : ∃ x ∈ xs, r x y := by
  induction h with
  | nil => exact nomatch hy
  | @cons x z xs ys hxz _ ih =>
    rcases mem_cons.mp hy with rfl | hy
    · exact ⟨x, by simp, hxz⟩
    · obtain ⟨w, hw, hwy⟩ := ih hy
      exact ⟨w, by simp [hw], hwy⟩

/-- Two ways of agreeing that are the same for each element are the same for rows. -/
theorem forall₂_congr_of_mem {r s : α → β → Prop} {xs : List α}
    (h : ∀ x ∈ xs, ∀ y, r x y ↔ s x y) (ys : List β) : Forall₂ r xs ys ↔ Forall₂ s xs ys := by
  induction xs generalizing ys with
  | nil => simp
  | cons x xs ih =>
    rw [forall_mem_cons] at h
    simp only [forall₂_cons_left_iff, h.1, ih h.2]

/-- A row of rows is gone through as one row. -/
theorem mapM_flatten_except (xss : List (List α)) :
    xss.flatten.mapM f = (xss.mapM (List.mapM f)).map List.flatten := by
  induction xss with
  | nil => rfl
  | cons xs xss ih =>
    rw [flatten_cons, mapM_append, mapM_cons, ih]
    cases xs.mapM f with
    | error e => rfl
    | ok ys => cases xss.mapM (List.mapM f) <;> rfl

end List

/-!
# Cutting at separators

`pieces p xs` cuts `xs`, a text or another row of things, at every element that satisfies `p`: the
separators are dropped and every piece between two of them is kept, the empty ones too. Hence there
is always at least one piece. What stands on the two sides of a separator is cut on its own,
`pieces_append_cons`. With no separator between them, two texts are cut so that the last piece of
the first goes on with the first piece of the second, `exists_pieces_append`. Cutting undoes putting
together, `pieces_intercalate`, and the other way round, `intercalate_pieces`. No element but a
separator gets lost, `flatten_pieces`. `cutAt` cuts at the first of some characters alone,
`eq_of_cutAt`.
-/

namespace VersionGate.Text

variable {α : Type}

/-- Puts an element in front of the first piece. -/
def consFirst (x : α) : List (List α) → List (List α)
  | [] => [[x]]
  | piece :: rest => (x :: piece) :: rest

/-- The pieces of `xs` between the elements that satisfy `p`. -/
def pieces (p : α → Bool) : List α → List (List α)
  | [] => [[]]
  | x :: xs => if p x then [] :: pieces p xs else consFirst x (pieces p xs)

/-- The text up to the first `c`, and the text after it; `none` where there is no `c`. -/
def cutAt (c : Char) : List Char → Option (List Char × List Char)
  | [] => none
  | d :: ds =>
    if d = c then some ([], ds)
    else (cutAt c ds).map fun (before, after) => (d :: before, after)

@[simp] theorem consFirst_ne_nil (x : α) (ps : List (List α)) : consFirst x ps ≠ [] := by
  cases ps <;> simp [consFirst]

/-- An element in front of the first piece makes no more pieces. -/
theorem length_consFirst (x : α) {ps : List (List α)} (h : ps ≠ []) :
    (consFirst x ps).length = ps.length := by
  cases ps with
  | nil => contradiction
  | cons piece rest => rfl

@[simp] theorem flatten_consFirst (x : α) (ps : List (List α)) :
    (consFirst x ps).flatten = x :: ps.flatten := by
  cases ps <;> rfl

/-- There is always a piece, though it may be empty. -/
theorem pieces_ne_nil (p : α → Bool) (xs : List α) : pieces p xs ≠ [] := by
  cases xs with
  | nil => simp [pieces]
  | cons x xs => by_cases h : p x <;> simp [pieces, h]

/-- The first piece ends at the first separator, and the others are those of what is behind it. -/
theorem pieces_eq_takeWhile (p : α → Bool) (xs : List α) :
    pieces p xs =
      xs.takeWhile (!p ·) ::
        match xs.dropWhile (!p ·) with
        | [] => []
        | _ :: rest => pieces p rest := by
  induction xs with
  | nil => rfl
  | cons x xs ih =>
    cases hx : p x with
    | true => simp [pieces, hx]
    | false => simp [pieces, hx, ih, consFirst]

/-- The pieces on the two sides of a separator make up the pieces of the whole. -/
theorem pieces_append_cons {p : α → Bool} {x : α} (h : p x) (xs ys : List α) :
    pieces p (xs ++ x :: ys) = pieces p xs ++ pieces p ys := by
  induction xs with
  | nil => simp [pieces, h]
  | cons y xs ih =>
    simp only [List.cons_append, pieces]
    split
    · rw [ih]; rfl
    · rw [ih]
      -- The first piece grows, and there is one.
      cases hp : pieces p xs with
      | nil => exact absurd hp (pieces_ne_nil p xs)
      | cons piece rest => rfl

/-- Where changing elements makes and unmakes no separators, it changes them in the pieces. -/
theorem pieces_map {p : α → Bool} {f : α → α} (h : ∀ x, p (f x) = p x) (xs : List α) :
    pieces p (xs.map f) = (pieces p xs).map (List.map f) := by
  induction xs with
  | nil => rfl
  | cons x xs ih =>
    rw [List.map_cons, pieces, pieces, h, ih]
    split
    · rfl
    · cases pieces p xs <;> rfl

/-- What holds no separator goes in front of the first piece. -/
theorem pieces_append_of_none {p : α → Bool} {xs ys piece : List α} {rest : List (List α)}
    (h : ∀ x ∈ xs, p x = false) (hys : pieces p ys = piece :: rest) :
    pieces p (xs ++ ys) = (xs ++ piece) :: rest := by
  induction xs with
  | nil => exact hys
  | cons x xs ih =>
    have hx : p x = false := h x (by simp)
    have hxs := ih fun y hy => h y (by simp [hy])
    simp [pieces, hx, hxs, consFirst]

/-- What holds no separator is one piece. -/
theorem pieces_of_none {p : α → Bool} {xs : List α} (h : ∀ x ∈ xs, p x = false) :
    pieces p xs = [xs] := by
  have hnil : pieces p ([] : List α) = [[]] := rfl
  simpa using pieces_append_of_none h hnil

/-- What is put behind a text goes on with its last piece. -/
theorem exists_pieces_append (p : α → Bool) (xs : List α) :
    ∃ front last, pieces p xs = front ++ [last] ∧ ∀ {ys first rest}, pieces p ys = first :: rest →
      pieces p (xs ++ ys) = front ++ (last ++ first) :: rest := by
  induction xs with
  | nil => exact ⟨[], [], rfl, fun h => h⟩
  | cons x xs ih =>
    obtain ⟨front, last, hxs, happend⟩ := ih
    cases hx : p x with
    | true =>
      refine ⟨[] :: front, last, by simp [pieces, hx, hxs], fun h => ?_⟩
      simp [pieces, hx, happend h]
    | false =>
      -- The element is in front of the first piece, which may be the last one, too.
      cases front with
      | nil =>
        refine ⟨[], x :: last, by simp [pieces, hx, hxs, consFirst], fun h => ?_⟩
        simp [pieces, hx, happend h, consFirst]
      | cons piece front =>
        refine ⟨(x :: piece) :: front, last, by simp [pieces, hx, hxs, consFirst], fun h => ?_⟩
        simp [pieces, hx, happend h, consFirst]

/-- Pieces without separators that have been put together with separators between them are cut
apart again. -/
theorem pieces_intercalate {p : α → Bool} {x : α} (hx : p x) {parts : List (List α)}
    (hne : parts ≠ []) (h : ∀ part ∈ parts, ∀ y ∈ part, p y = false) :
    pieces p ([x].intercalate parts) = parts := by
  induction parts with
  | nil => contradiction
  | cons part rest ih =>
    have hpart : pieces p part = [part] := pieces_of_none (h part (by simp))
    cases rest with
    | nil => rw [List.intercalate_singleton, hpart]
    | cons next rest =>
      have hrest := ih (by simp) fun q hq => h q (by simp [hq])
      rw [List.intercalate_cons_cons, List.append_assoc, List.singleton_append,
        pieces_append_cons hx, hpart, hrest]
      rfl

/-- Cut at one element, the pieces are put together again with that element between them. -/
theorem intercalate_pieces [BEq α] [LawfulBEq α] (x : α) (xs : List α) :
    [x].intercalate (pieces (· == x) xs) = xs := by
  induction xs with
  | nil => rfl
  | cons y ys ih =>
    obtain ⟨first, rest, hys⟩ := List.exists_cons_of_ne_nil (pieces_ne_nil (· == x) ys)
    rw [hys] at ih
    cases hy : y == x with
    | true =>
      rw [pieces, if_pos hy, hys, List.intercalate_cons_cons, ih, eq_of_beq hy]
      rfl
    | false =>
      rw [pieces, hy, if_neg Bool.false_ne_true, hys, consFirst, ← ih]
      cases rest with
      | nil => rw [List.intercalate_singleton, List.intercalate_singleton]
      | cons next rest => rw [List.intercalate_cons_cons, List.intercalate_cons_cons]; rfl

/-- What is no separator is in one of the pieces. -/
theorem exists_mem_pieces {p : α → Bool} {xs : List α} {x : α} (h : x ∈ xs) (hx : p x = false) :
    ∃ piece ∈ pieces p xs, x ∈ piece := by
  induction xs with
  | nil => contradiction
  | cons y ys ih =>
    cases hy : p y with
    | true =>
      have hne : x ≠ y := by
        rintro rfl
        simp [hx] at hy
      obtain ⟨piece, hpiece, hmem⟩ := ih (by simpa [hne] using h)
      exact ⟨piece, by simp [pieces, hy, hpiece], hmem⟩
    | false =>
      -- An element that is no separator joins the first piece.
      obtain ⟨first, rest, hys⟩ := List.exists_cons_of_ne_nil (pieces_ne_nil p ys)
      simp only [pieces, hy, hys, consFirst]
      rcases List.mem_cons.mp h with rfl | h
      · exact ⟨x :: first, by simp, by simp⟩
      · obtain ⟨piece, hpiece, hmem⟩ := ih h
        rw [hys] at hpiece
        rcases List.mem_cons.mp hpiece with rfl | hpiece
        · exact ⟨y :: piece, by simp, by simp [hmem]⟩
        · exact ⟨piece, by simp [hpiece], hmem⟩

/-- There is one piece more than there are separators. -/
theorem length_pieces (p : α → Bool) (xs : List α) : (pieces p xs).length = xs.countP p + 1 := by
  induction xs with
  | nil => rfl
  | cons x xs ih =>
    cases hx : p x with
    | true => simp [pieces, hx, ih]
    | false => simp [pieces, hx, length_consFirst x (pieces_ne_nil p xs), ih]

/-- The pieces one after the other are everything but the separators. -/
theorem flatten_pieces (p : α → Bool) (xs : List α) : (pieces p xs).flatten = xs.filter (!p ·) := by
  induction xs with
  | nil => rfl
  | cons x xs ih => cases hx : p x <;> simp [pieces, hx, ih]

/-- A piece stands somewhere in the whole. -/
theorem infix_of_mem_pieces {p : α → Bool} {xs piece : List α} (h : piece ∈ pieces p xs) :
    piece <:+: xs := by
  -- The first piece is where the text starts, which the induction has to know too.
  suffices hboth : (∀ q ∈ (pieces p xs).head?, q <+: xs) ∧ ∀ q ∈ (pieces p xs).tail, q <:+: xs by
    obtain ⟨first, rest, hxs⟩ := List.exists_cons_of_ne_nil (pieces_ne_nil p xs)
    rw [hxs] at h hboth
    rcases List.mem_cons.mp h with rfl | h
    · exact (hboth.1 piece rfl).isInfix
    · exact hboth.2 piece h
  clear h
  induction xs with
  | nil => simp [pieces]
  | cons x xs ih =>
    obtain ⟨first, rest, hxs⟩ := List.exists_cons_of_ne_nil (pieces_ne_nil p xs)
    have hfirst : first <+: xs := ih.1 first (by rw [hxs]; rfl)
    have hrest : ∀ q ∈ rest, q <:+: xs := fun q hq => ih.2 q (by rw [hxs]; exact hq)
    have hbehind : xs <:+: x :: xs := (List.suffix_cons x xs).isInfix
    cases hx : p x with
    | true =>
      simp only [pieces, hx, if_true, hxs]
      refine ⟨by simp, fun q hq => ?_⟩
      rcases List.mem_cons.mp hq with rfl | hq
      · exact hfirst.isInfix.trans hbehind
      · exact (hrest q hq).trans hbehind
    | false =>
      simp only [pieces, hx, hxs, consFirst]
      refine ⟨?_, fun q hq => (hrest q hq).trans hbehind⟩
      rintro q ⟨⟩
      exact List.cons_prefix_cons.mpr ⟨rfl, hfirst⟩

/-- All pieces are empty when there is nothing but separators. -/
theorem filter_pieces_eq_nil_iff {p : α → Bool} {xs : List α} :
    (pieces p xs).filter (!·.isEmpty) = [] ↔ xs.all p = true := by
  induction xs with
  | nil => simp [pieces]
  | cons x xs ih =>
    cases hx : p x with
    | true => simp [pieces, hx, ih]
    | false =>
      simp only [pieces, hx]
      cases pieces p xs <;> simp [consFirst, hx]

/-! ## Cutting once -/

theorem cutAt_eq_none_iff {c : Char} {cs : List Char} : cutAt c cs = none ↔ c ∉ cs := by
  induction cs with
  | nil => simp [cutAt]
  | cons d ds ih =>
    rw [cutAt]
    split
    · next h => simp [h]
    · next h => simp [ih, Ne.symm h]

/-- Cutting at a character finds the first one. -/
theorem eq_of_cutAt {c : Char} {cs before after : List Char}
    (h : cutAt c cs = some (before, after)) : cs = before ++ c :: after ∧ c ∉ before := by
  induction cs generalizing before with
  | nil => simp [cutAt] at h
  | cons d ds ih =>
    rw [cutAt] at h
    by_cases hd : d = c
    · simp only [if_pos hd, Option.some.injEq, Prod.mk.injEq] at h
      obtain ⟨rfl, rfl⟩ := h
      exact ⟨by simp [hd], by simp⟩
    · simp only [if_neg hd, Option.map_eq_some_iff, Prod.exists, Prod.mk.injEq] at h
      obtain ⟨front, rest, hcut, rfl, rfl⟩ := h
      obtain ⟨rfl, hfront⟩ := ih hcut
      exact ⟨rfl, by simp [hfront, Ne.symm hd]⟩

/-- A text is cut at the first such character. -/
theorem cutAt_append {c : Char} {cs : List Char} (h : c ∉ cs) (rest : List Char) :
    cutAt c (cs ++ c :: rest) = some (cs, rest) := by
  induction cs with
  | nil => simp [cutAt]
  | cons d ds ih =>
    rw [List.mem_cons, not_or] at h
    rw [List.cons_append, cutAt, if_neg (Ne.symm h.1), ih h.2, Option.map_some]

end VersionGate.Text

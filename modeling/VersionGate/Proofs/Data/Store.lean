import VersionGate.Data.Store
import VersionGate.Proofs.Data.Labels

/-!
# Unfolding stored data

In a store where every part of a cell has a greater number than the cell, no data contains itself,
so unfolding does not stop anywhere: with every round of growing, the data from one number less on
is known. Nothing is cut off then.

## Key results

- `Unfolds`: what data there is in a cell, all of it
- `unfolds_unfold`: unfolding gives all the data in a cell of an ordered store
- `Unfolds.apart`: this data does not contain itself
-/

namespace VersionGate.Data.Store

variable {store : Store} {known : Known} {root : Nat}

/-- Whether the parts of every cell are cells with greater numbers. -/
def Ordered (store : Store) : Prop :=
  ∀ (n : Nat) (cell : Cell), store[n]? = some cell → ∀ m ∈ cell.parts, n < m ∧ m < store.size

/-- Whether a datum is all the data in a cell. -/
inductive Unfolds (store : Store) : Nat → Datum → Prop where
  | build {n : Nat} {cell : Cell} {part : Nat → Datum} (hcell : store[n]? = some cell)
    (h : ∀ m ∈ cell.parts, Unfolds store m (part m)) : Unfolds store n (cell.build n part)

/-- Whether all that is known of cells is so. -/
def Sound (store : Store) (known : Known) : Prop := ∀ n d, known.get? n = some d → Unfolds store n d

/-- Whether the data in all cells from some number on is known. -/
def KnownFrom (store : Store) (known : Known) (k : Nat) : Prop :=
  ∀ n, k ≤ n → n < store.size → (known.get? n).isSome

/-- What a round of growing says about a cell. -/
private theorem get?_grow (known : Known) (n : Nat) :
    (store.grow known).get? n = store[n]?.bind fun cell =>
      match known.get? n with
      | some d => some d
      | none =>
        if cell.parts.all fun m => (known.get? m).isSome then
          some (cell.build n fun m => (known.get? m).getD .null)
        else none := by
  rw [Known.get?, grow, Array.getElem?_mapIdx]
  cases store[n]? <;> rfl

/-- What is built of known data unfolds its cell. -/
theorem Sound.grow (h : Sound store known) : Sound store (store.grow known) := by
  intro n d hd
  -- What is known after a round was known before, or it is built of what was.
  rw [get?_grow] at hd
  obtain ⟨cell, hcell, hd⟩ := Option.bind_eq_some_iff.mp hd
  cases hn : known.get? n with
  | some old =>
    rw [hn] at hd
    obtain rfl : old = d := Option.some.inj hd
    exact h n old hn
  | none =>
    simp only [hn] at hd
    split at hd
    · next hparts =>
      obtain rfl := Option.some.inj hd
      refine .build hcell fun m hm => ?_
      have hsome : (known.get? m).isSome = true := List.all_eq_true.mp hparts m hm
      obtain ⟨part, hpart⟩ := Option.isSome_iff_exists.mp hsome
      rw [hpart]
      exact h m part hpart
    · exact absurd hd (by simp)

/-- With each round the data of one more cell is known, as no part comes before its cell. -/
theorem KnownFrom.grow {k : Nat} (hordered : store.Ordered) (h : KnownFrom store known (k + 1)) :
    KnownFrom store (store.grow known) k := by
  intro n hk hn
  obtain ⟨cell, hcell⟩ : ∃ cell, store[n]? = some cell := ⟨store[n], Array.getElem?_eq_getElem hn⟩
  have hparts : ∀ m ∈ cell.parts, (known.get? m).isSome := by
    intro m hm
    obtain ⟨hlt, hsize⟩ := hordered n cell hcell m hm
    exact h m (by omega) hsize
  rw [get?_grow, hcell]
  cases known.get? n with
  | some d => simp
  | none => simpa using hparts

/-- As many rounds of growing are enough as there are cells of which nothing is known. -/
private theorem growUntil_spec (hordered : store.Ordered) (hroot : root < store.size) :
    ∀ (fuel k : Nat) (known : Known), k ≤ fuel → Sound store known → KnownFrom store known k →
      Sound store (store.growUntil root fuel known) ∧
        ((store.growUntil root fuel known).get? root).isSome
  | 0, k, known, hk, hsound, hknown => ⟨hsound, hknown root (by omega) hroot⟩
  | fuel + 1, k, known, hk, hsound, hknown => by
    rw [growUntil]
    split
    · next hsome => exact ⟨hsound, hsome⟩
    · -- a round makes the data in the cell in front of those known
      have hless : KnownFrom store known (k - 1 + 1) := fun n hn => hknown n (by omega)
      exact growUntil_spec hordered hroot fuel (k - 1) _ (by omega) hsound.grow
        (hless.grow hordered)

/-- Unfolding gives all the data in a cell. -/
theorem unfolds_unfold (hordered : store.Ordered) (hroot : root < store.size) :
    Unfolds store root (store.unfold root) := by
  have hnothing : ∀ n, Known.get? (Array.replicate store.size none) n = none := by
    intro n
    simp only [Known.get?, Array.getElem?_replicate]
    split <;> rfl
  have hsound : Sound store (Array.replicate store.size none) := by
    intro n d hd
    rw [hnothing] at hd
    exact absurd hd (by simp)
  have hknown : KnownFrom store (Array.replicate store.size none) store.size := by
    intro n hn hlt
    omega
  obtain ⟨hall, hsome⟩ := growUntil_spec hordered hroot (store.size + 1) store.size _ (by omega)
    hsound hknown
  obtain ⟨d, hd⟩ := Option.isSome_iff_exists.mp hsome
  simp only [unfold, unfoldWith, hd]
  exact hall root d hd

/-- All the data in a cell of an ordered store has greater numbers than what it is inside of. -/
theorem Unfolds.apart (hordered : store.Ordered) {n : Nat} {d : Datum} (h : Unfolds store n d) :
    ∀ {inside : List Nat}, (∀ m ∈ inside, m < n) → d.Apart inside := by
  induction h with
  | @build n cell part hcell _ ih =>
  intro inside hinside
  have hnew : Datum.isInside inside (some n) = false := by
    rw [Datum.isInside_eq_false_iff]
    rintro m ⟨⟩ hm
    exact absurd (hinside n hm) (Nat.lt_irrefl n)
  -- the parts of the cell come behind it, and so behind all that it is inside of
  have hpart : ∀ m ∈ cell.parts, (part m).Apart (n :: inside) := fun m hm =>
    ih m hm fun k hk => by
      have hlt := (hordered n cell hcell m hm).1
      rcases List.mem_cons.mp hk with rfl | hk
      · exact hlt
      · exact Nat.lt_trans (hinside k hk) hlt
  cases cell with
  | scalar s => exact .scalar
  | set elements => exact .set
  | list items => exact .list hnew (List.forall_mem_map.mpr hpart)
  | map fields =>
    refine .map hnew (List.forall_mem_map.mpr fun f hf => ?_)
    exact hpart f.2 (List.mem_map_of_mem hf)
  | pairs items =>
    refine .pairs hnew (List.forall_mem_map.mpr fun p hp => ?_)
      (List.forall_mem_map.mpr fun p hp => ?_)
    · exact hpart p.1 (List.mem_flatMap.mpr ⟨p, hp, by simp⟩)
    · exact hpart p.2 (List.mem_flatMap.mpr ⟨p, hp, by simp⟩)

end VersionGate.Data.Store

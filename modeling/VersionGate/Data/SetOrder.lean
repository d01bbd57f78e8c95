import VersionGate.Data.Datum

/-!
# The order of a set

A set is a hash table, and its elements come in the order of their slots. The hash of a number is by
its value: what is left of it modulo a great prime number, for fractions as well. All other hashes
are different ones in every run, and so is the order then; the one that is written stands for any of
them.

An element goes to the slot that its hash says, or behind it if that is taken. If there is no free
slot near by, more and more of the hash says where to look next.
-/

namespace VersionGate.Data.SetOrder

/-- The prime number by which hashes are taken. -/
def modulus : Nat := 2305843009213693951

/-- The exponent of the power of two that is one more than the modulus. -/
def modulusBits : Nat := 61

/-- The number of all hashes. -/
def hashCount : Nat := 18446744073709551616

/-- The hash of the infinite number. -/
def infinityHash : Nat := 314159

/-- A hash with a sign. The negative ones count from the end, and the last one is not used. -/
def signedHash (negative : Bool) (n : Nat) : Nat :=
  if !negative || n = 0 then n else if n = 1 then hashCount - 2 else hashCount - n

/-- The hash of a scalar, if it is the same in every run. -/
def hash? : Scalar → Option Nat
  | .bool b => some (if b then 1 else 0)
  | .int n => some (signedHash (n < 0) (n.natAbs % modulus))
  | .float (.finite negative mantissa exponent) =>
    -- powers of two come round again with the bits of the modulus
    let power := (exponent % (modulusBits : Int)).toNat
    some (signedHash negative (mantissa * Nat.pow 2 power % modulus))
  | .float (.infinite negative) => some (signedHash negative infinityHash)
  | _ => none

/-- The least number of slots. -/
def leastSize : Nat := 8

/-- The number of slots for some elements. They are at most three fifths of the least number, or
less than half of another power of two. -/
def size (count : Nat) : Nat :=
  if 5 * count < 3 * (leastSize - 1) then leastSize else Nat.pow 2 ((2 * count).log2 + 1)

/-- How many slots are tried one behind the other, if there are as many. -/
def near : Nat := 10

/-- The slot for an element, looking from one on. -/
def freeSlot (size : Nat) (taken : List Nat) : Nat → Nat → Nat → Nat
  | 0, slot, _ => slot
  | fuel + 1, slot, rest =>
    let count := if slot + near ≤ size then near else 1
    match ((List.range count).map (slot + ·)).find? fun n => !taken.contains n with
    | some n => n
    | none =>
      let rest := rest / 32
      freeSlot size taken fuel ((5 * slot + 1 + rest) % size) rest

/-- The slots for elements with their hashes, one after the other. A hash has been used up after
thirteen steps, and from then on all slots have their turn. -/
def slots (size : Nat) : List Nat → List (Nat × Scalar) → List (Nat × Scalar)
  | _, [] => []
  | taken, (hash, k) :: rest =>
    let slot := freeSlot size taken (size + 13) (hash % size) hash
    (slot, k) :: slots size (slot :: taken) rest

/-- The elements of a set in their order, when they are put into it as they are written. -/
def order (elements : List Scalar) : List Scalar :=
  if elements.all fun k => (hash? k).isSome then
    let hashed := elements.map fun k => ((hash? k).getD 0, k)
    ((slots (size elements.length) [] hashed).mergeSort fun a b => a.1 ≤ b.1).map (·.2)
  else elements

/-- Every element gets a slot. -/
private theorem map_snd_slots (size : Nat) (taken : List Nat) (hashed : List (Nat × Scalar)) :
    (slots size taken hashed).map (·.2) = hashed.map (·.2) := by
  induction hashed generalizing taken with
  | nil => rfl
  | cons head rest ih => simp only [slots, List.map_cons, ih]

/-- A set has the elements that are put into it, whatever their order is. -/
theorem order_perm (elements : List Scalar) : (order elements).Perm elements := by
  unfold order
  split
  · refine ((List.mergeSort_perm _ _).map _).trans ?_
    rw [map_snd_slots, List.map_map]
    exact (List.map_id elements).symm ▸ .refl _
  · exact .refl _

end VersionGate.Data.SetOrder

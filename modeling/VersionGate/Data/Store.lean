import VersionGate.Data.Datum

/-!
# Stored data

Data in cells with numbers. A cell gives its parts by their numbers, so data can share parts and
can contain itself.

`unfold` is the datum that starts at a cell. What does not contain itself is built once for every
cell, however often it is shared. The other cells are unfolded `layers` deep. Nobody looks at what
is further in: loading a tree goes into a map and a list at each level and is at its end when it
comes to a map that it is inside of, and `Datum.shown` goes around once inside of what it shows.
-/

namespace VersionGate.Data

/-- A piece of data with its parts by number. -/
inductive Cell where
  | scalar (s : Scalar)
  | list (items : List Nat)
  | map (fields : List (Scalar × Nat))
  | set (elements : List Scalar)
  | pairs (items : List (Nat × Nat))
  deriving Repr

namespace Cell

/-- The numbers of the parts. -/
def parts : Cell → List Nat
  | scalar _ | set _ => []
  | list items => items
  | map fields => fields.map (·.2)
  | pairs items => items.flatMap fun (k, v) => [k, v]

/-- The datum in a cell with a given number, with the data of its parts. -/
def build (number : Nat) (part : Nat → Datum) : Cell → Datum
  | scalar s => .scalar s
  | list items => .list (some number) (items.map part)
  | map fields => .map (some number) (fields.map fun (k, n) => (k, part n))
  | set elements => .set elements
  | pairs items => .pairs (some number) (items.map fun (k, v) => (part k, part v))

end Cell

/-- Data in cells with numbers. -/
abbrev Store := Array Cell

namespace Store

/-- The data of the cells for which it is known. -/
abbrev Known := Array (Option Datum)

/-- What is known of a cell. -/
def Known.get? (known : Known) (n : Nat) : Option Datum := known[n]?.join

/-- Builds the data of all cells with known parts. -/
def grow (store : Store) (known : Known) : Known :=
  store.mapIdx fun n cell =>
    match known.get? n with
    | some d => some d
    | none =>
      if cell.parts.all fun m => (known.get? m).isSome then
        some (cell.build n fun m => (known.get? m).getD .null)
      else none

/-- Builds data until that of a cell is known. -/
def growUntil (store : Store) (root : Nat) : Nat → Known → Known
  | 0, known => known
  | fuel + 1, known =>
    if (known.get? root).isSome then known else growUntil store root fuel (store.grow known)

/-- Unfolds the data that is not known, some layers deep. What is further in is cut off, and `cut`
stands in its place. -/
def deepen (store : Store) (known : Known) (cut : Datum) : Nat → Array Datum
  | 0 => store.map fun _ => cut
  | depth + 1 =>
    let inner := deepen store known cut depth
    store.mapIdx fun n cell =>
      (known.get? n).getD (cell.build n fun m => inner[m]?.getD .null)

/-- The numbers of the cells of which the data is not known. -/
def unknown (store : Store) (known : Known) : List Nat :=
  (List.range store.size).filter fun n => (known.get? n).isNone

/-- How deep data is unfolded that is not known. -/
def layers (store : Store) (known : Known) : Nat := 3 * (store.unknown known).length + 2

/-- The datum that starts at a cell, with `cut` in place of what is too far in. -/
def unfoldWith (cut : Datum) (store : Store) (root : Nat) : Datum :=
  let known := store.growUntil root (store.size + 1) (Array.replicate store.size none)
  match known.get? root with
  | some d => d
  | none => (store.deepen known cut (store.layers known))[root]?.getD .null

/-- The datum that starts at a cell. -/
def unfold (store : Store) (root : Nat) : Datum := store.unfoldWith .null root

end Store

end VersionGate.Data

import VersionGate.Text.Letter

/-!
# Similar words

How much two words have in common: the longest run of letters in both, the first such run if there
are several, then in the same way what is common on the left of it and on its right. A word is
similar to another if the common letters are at least three fifths of their average length.
-/

namespace VersionGate.Text

/-- The number of letters at the front of both words. -/
def commonFront : List Letter → List Letter → Nat
  | x :: xs, y :: ys => if x = y then commonFront xs ys + 1 else 0
  | _, _ => 0

/-- The longest run of letters in both words: where it starts in each, and its length. -/
def longestRun (xs ys : List Letter) : Nat × Nat × Nat :=
  let starts := (List.range xs.length).flatMap fun i => (List.range ys.length).map fun j => (i, j)
  starts.foldl (fun best start =>
    let n := commonFront (xs.drop start.1) (ys.drop start.2)
    if best.2.2 < n then (start.1, start.2, n) else best) (0, 0, 0)

/-- The number of letters that two words have in common, going down at most `fuel` times. -/
def commonWithin : Nat → List Letter → List Letter → Nat
  | 0, _, _ => 0
  | fuel + 1, xs, ys =>
    match longestRun xs ys with
    | (_, _, 0) => 0
    | (i, j, n) =>
      n + commonWithin fuel (xs.take i) (ys.take j)
        + commonWithin fuel (xs.drop (i + n)) (ys.drop (j + n))

/-- The number of letters that two words have in common. Going down takes at least one letter
off the first word. -/
def common (xs ys : List Letter) : Nat := commonWithin xs.length xs ys

/-- Whether two words are similar. -/
def isSimilar (xs ys : List Letter) : Bool := 3 * (xs.length + ys.length) ≤ 10 * common xs ys

/-- Whether `xs` has no more in common with `word`, for its length, than `ys` has. -/
def isNoCloser (word xs ys : List Letter) : Bool :=
  common xs word * (ys.length + word.length) ≤ common ys word * (xs.length + word.length)

/-- The three words of a list that are most similar to `word`, or fewer, in the order of the
alphabet. -/
def similarTo (word : String) (words : List String) : List String :=
  let of (s : String) := letters s.toList
  let similar := words.filter fun x => isSimilar (of x) (of word)
  let closest := similar.mergeSort fun x y => isNoCloser (of word) (of y) (of x)
  (closest.take 3).mergeSort (· ≤ ·)

end VersionGate.Text

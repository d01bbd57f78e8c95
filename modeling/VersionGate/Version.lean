import VersionGate.Text.Decimal

/-!
# Versions

A version is written with one, two or three numbers: `1`, `1.8`, `1.8.1`. A version with all three
is complete; a shorter one leaves the rest open. Two versions are compared number by number until
they differ or one of them stops, so an open number is a wildcard and not zero: `1.8` compares equal
to `1.8.1` and to `1.8.0`. Equality of versions is the ordinary one and tells those apart.
-/

namespace VersionGate

/-- A version, by how many of its three numbers it has. -/
inductive Version where
  | major (major : Nat)
  | minor (major minor : Nat)
  | full (major minor revision : Nat)
  deriving DecidableEq, Repr

namespace Version

/-- The numbers that a version has, the most significant first. -/
def numbers : Version → List Nat
  | .major a => [a]
  | .minor a b => [a, b]
  | .full a b c => [a, b, c]

/-- A version is complete when it has all three numbers. -/
def isComplete : Version → Bool
  | .full .. => true
  | _ => false

/-- The numbers of a version with points between them. -/
def text (v : Version) : String :=
  ".".intercalate (v.numbers.map Decimal.natText)

/-- The difference at the first place where two rows of numbers differ, zero if one stops first. -/
def firstDifference : List Nat → List Nat → Int
  | a :: as, b :: bs => if a = b then firstDifference as bs else (a : Int) - b
  | _, _ => 0

/-- Compares two versions: negative, zero or positive as `v` is below, within or above `w`. -/
def compare (v w : Version) : Int := firstDifference v.numbers w.numbers

/-- Why three numbers, the last two of which may be missing, are no version. -/
inductive Fault where
  /-- One of the numbers that are present is negative. -/
  | negative (parts : List Int)
  /-- There is a revision and no minor number. -/
  | revisionWithoutMinor
  deriving DecidableEq, Repr

/-- The wording of a fault. -/
def Fault.message : Fault → String
  | .negative parts =>
    "Version components must be non-negative: " ++ ".".intercalate (parts.map Decimal.intText)
  | .revisionWithoutMinor => "A version with a revision must also have a minor component"

/-- The version with the given numbers. A negative number counts before a missing minor number. -/
def ofParts (major : Int) (minor revision : Option Int) : Except Fault Version :=
  let parts := major :: (minor.toList ++ revision.toList)
  if parts.any (· < 0) then .error (.negative parts)
  else
    match minor, revision with
    | none, none => .ok (.major major.toNat)
    | none, some _ => .error .revisionWithoutMinor
    | some b, none => .ok (.minor major.toNat b.toNat)
    | some b, some c => .ok (.full major.toNat b.toNat c.toNat)

end Version

end VersionGate

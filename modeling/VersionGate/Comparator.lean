/-!
# Comparators

The sign in front of a version says which running versions the term holds for. No sign and `≈` both
ask for a version within the bound and are told apart only by their spelling.
-/

namespace VersionGate

/-- The signs that may stand in front of a version. -/
inductive Comparator where
  | bare
  | equivalent
  | greater
  | greaterEquivalent
  | less
  | lessEquivalent
  deriving DecidableEq, Repr

namespace Comparator

/-- All comparators. -/
def all : List Comparator :=
  [bare, equivalent, greater, greaterEquivalent, less, lessEquivalent]

/-- The spelling of a comparator. -/
def symbol : Comparator → String
  | bare => ""
  | equivalent => "≈"
  | greater => ">"
  | greaterEquivalent => ">≈"
  | less => "<"
  | lessEquivalent => "<≈"

/-- The comparator with the given spelling. -/
def ofSymbol? (s : String) : Option Comparator := all.find? (·.symbol == s)

/-- Whether a comparator accepts the outcome of comparing a version with the bound. -/
def accepts : Comparator → Int → Bool
  | bare, d | equivalent, d => d == 0
  | greater, d => 0 < d
  | greaterEquivalent, d => 0 ≤ d
  | less, d => d < 0
  | lessEquivalent, d => d ≤ 0

/-- Splits the comparator off the front of a text, taking the longest one. -/
def split : List Char → Comparator × List Char
  | '<' :: '≈' :: cs => (lessEquivalent, cs)
  | '>' :: '≈' :: cs => (greaterEquivalent, cs)
  | '<' :: cs => (less, cs)
  | '>' :: cs => (greater, cs)
  | '≈' :: cs => (equivalent, cs)
  | cs => (bare, cs)

end Comparator

end VersionGate

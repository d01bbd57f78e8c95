import VersionGate.Comparator
import VersionGate.Text.Pieces
import VersionGate.Text.Quoted
import VersionGate.Version

/-!
# Version terms

A term is a comparator followed by a version of one to three ASCII numerals with points between them
and nothing else, `>≈1.8`. This module also holds the ways in which a text can fail to be a term, a
version or a requirement, `Malformed`, and the one failure that is no matter of form: a numeral that
is too long.
-/

namespace VersionGate

/-- Why a text is not the term, version or requirement that it should be. -/
inductive Malformed where
  /-- There is no text where a term is wanted. -/
  | noTerm
  /-- The text is no comparator followed by a version. -/
  | term (text : String)
  /-- A version on its own has a comparator in front. -/
  | comparator (text : String)
  /-- A version that has to be complete is not. -/
  | incomplete (text : String)
  /-- A mod is named with other characters than ASCII letters, digits, and `_ . - /`. -/
  | modName (text : String)
  /-- There is no text where a requirement is wanted. -/
  | noRequirement
  /-- The requirement is the empty text. -/
  | emptyRequirement
  /-- A token stands where the requirement should end. -/
  | unexpectedToken (token : String) (position : Nat) (text : String)
  deriving DecidableEq, Repr

/-- The wording of a malformed text. -/
def Malformed.message : Malformed → String
  | noTerm => "Version term cannot be None"
  | term text => "Malformed version term: " ++ Text.quoted text
  | comparator text => "Version cannot have a comparator: " ++ Text.quoted text
  | incomplete text => "Version must be major.minor.revision: " ++ Text.quoted text
  | modName text => "Malformed mod identifier: " ++ Text.quoted text
  | noRequirement => "Expression cannot be None"
  | emptyRequirement => "Expression cannot be empty"
  | unexpectedToken token position text =>
    "Unexpected token " ++ Text.quoted token ++ " at position " ++ Decimal.natText position
      ++ " in " ++ Text.quoted text

/-- Why reading a term, a version or a requirement fails. -/
inductive ReadFault where
  | malformed (cause : Malformed)
  | tooLong (numeral : Decimal.TooLong)
  deriving DecidableEq, Repr

/-- The wording of a failed reading. -/
def ReadFault.message : ReadFault → String
  | malformed cause => cause.message
  | tooLong numeral => numeral.message

/-- A comparison of the running version with a bound. -/
structure Term where
  comparator : Comparator
  bound : Version
  deriving DecidableEq, Repr

/-- Reads one numeral of a version. -/
def Version.readNumeral (digits : List Char) : Except ReadFault Nat :=
  (Decimal.read digits).mapError .tooLong

/-- A numeral of a version: at least one ASCII digit and nothing else. -/
def Version.isNumeral (cs : List Char) : Bool := !cs.isEmpty && cs.all Char.isDigit

/-- Reads a version from one to three numerals; of those that are too long the first counts. -/
def Version.ofNumerals? : List (List Char) → Option (Except ReadFault Version)
  | [a] => some do return .major (← readNumeral a)
  | [a, b] => some do return .minor (← readNumeral a) (← readNumeral b)
  | [a, b, c] => some do return .full (← readNumeral a) (← readNumeral b) (← readNumeral c)
  | _ => none

/-- Reads a version; `none` if the text has not the form of one. -/
def Version.readChars? (cs : List Char) : Option (Except ReadFault Version) :=
  let numerals := Text.pieces (· == '.') cs
  if numerals.all isNumeral then ofNumerals? numerals else none

namespace Term

/-- The spelling of a term. -/
def text (t : Term) : String := t.comparator.symbol ++ t.bound.text

/-- Reads a term. -/
def readChars (cs : List Char) : Except ReadFault Term :=
  let (comparator, rest) := Comparator.split cs
  match Version.readChars? rest with
  | none => .error (.malformed (.term (String.ofList cs)))
  | some bound => bound.map fun bound => ⟨comparator, bound⟩

/-- Reads a term from a text, which may be missing. -/
def read : Option String → Except ReadFault Term
  | none => .error (.malformed .noTerm)
  | some s => readChars s.toList

/-- Whether a term holds for a running version. -/
def holds (t : Term) (running : Version) : Bool :=
  t.comparator.accepts (running.compare t.bound)

end Term

/-- Reads a version, which has to be complete if `complete` says so. -/
def Version.read (complete : Bool) (text : Option String) : Except ReadFault Version := do
  let term ← Term.read text
  if term.comparator ≠ .bare then .error (.malformed (.comparator (text.getD "")))
  else if complete && !term.bound.isComplete then .error (.malformed (.incomplete (text.getD "")))
  else .ok term.bound

end VersionGate

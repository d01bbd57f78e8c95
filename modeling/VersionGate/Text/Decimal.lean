/-!
# Decimal numerals

Natural numbers and integers as texts in base ten. Reading is by the digits from left to right,
`value`; writing, `ofNat`, is the shortest numeral. A numeral of more than `maxDigits` digits is
neither read nor written as an integer: leading zeros count when reading.
-/

namespace VersionGate.Decimal

/-- The most digits an integer numeral may have. -/
def maxDigits : Nat := 4300

/-- The number that an ASCII digit stands for. -/
def digitValue (c : Char) : Nat := c.toNat - '0'.toNat

/-- The number that a row of ASCII digits stands for, the most significant digit first. -/
def value (digits : List Char) : Nat :=
  digits.foldl (fun n c => 10 * n + digitValue c) 0

/-- The numeral of a natural number, without leading zeros. -/
def ofNat (n : Nat) : List Char := Nat.toDigits 10 n

/-- The numeral of a natural number as a text. -/
def natText (n : Nat) : String := String.ofList (ofNat n)

/-- The numeral of an integer as a text, with a minus sign before a negative one. -/
def intText : Int → String
  | .ofNat n => natText n
  | .negSucc n => "-" ++ natText (n + 1)

/-- The numeral of `n` filled up with zeros to at least `width` digits. -/
def padded (width n : Nat) : String :=
  let digits := ofNat n
  String.ofList (List.replicate (width - digits.length) '0' ++ digits)

/-- A numeral that is too long to be an integer: on reading, the number of its digits is known. -/
structure TooLong where
  digits : Option Nat
  deriving DecidableEq, Repr

/-- The wording of a refused numeral. -/
def TooLong.message (e : TooLong) : String :=
  let found := match e.digits with
    | some n => ": value has " ++ natText n ++ " digits"
    | none => ""
  "Exceeds the limit (" ++ natText maxDigits ++ " digits) for integer string conversion" ++ found
    ++ "; use sys.set_int_max_str_digits() to increase the limit"

/-- Reads a row of ASCII digits, refusing one that is too long. -/
def read (digits : List Char) : Except TooLong Nat :=
  if digits.length ≤ maxDigits then .ok (value digits) else .error ⟨some digits.length⟩

/-- Writes an integer, refusing one whose numeral is too long. -/
def write (n : Int) : Except TooLong String :=
  if (ofNat n.natAbs).length ≤ maxDigits then .ok (intText n) else .error ⟨none⟩

end VersionGate.Decimal

import VersionGate.Data.Binary64
import VersionGate.Text.Decimal

/-!
# Shortest decimals

The decimal text of a floating-point number has the fewest digits that read back as the number. Of
the decimals with that many digits that do, it is the nearest to the number, and of two equally near
ones the one with the even last digit.

`shortest` chooses the digits. How they are laid out is the matter of `Layout`.
-/

namespace VersionGate.Data.Binary64

/-- A decimal `0.d₁d₂… * 10 ^ point`. -/
structure Decimal where
  digits : List Char
  point : Int
  deriving DecidableEq, Repr

/-- The numbers that round to a finite number, and the number itself, as multiples of one unit. -/
structure Interval where
  low : Nat
  middle : Nat
  high : Nat
  /-- Whether the two ends round to the number too. -/
  closed : Bool

/-- The interval of `mantissa * 2 ^ exponent` in units of `2 ^ (exponent - 2)`. Below a power of two
the next number is only half as far away. -/
def intervalOf (mantissa : Nat) (exponent : Int) : Interval where
  low := 4 * mantissa -
    (if mantissa = leastFull && leastExponent < exponent then 1 else 2)
  middle := 4 * mantissa
  high := 4 * mantissa + 2
  closed := mantissa % 2 == 0

/-- Whether `n / unit` lies in the interval, whose ends count if it is closed. -/
def Interval.contains (i : Interval) (scale : Nat) (n : Nat) : Bool :=
  let (low, high) := (i.low * scale, i.high * scale)
  if i.closed then low ≤ n && n ≤ high else low < n && n < high

/-- The best multiple of `unit` in the interval scaled by `scale`: one of the two neighbours of the
middle, if either lies in the interval. -/
def bestMultiple? (i : Interval) (scale unit : Nat) : Option Nat :=
  let middle := i.middle * scale
  let below := middle / unit
  let above := below + 1
  match i.contains scale (below * unit), i.contains scale (above * unit) with
  | false, false => none
  | true, false => some below
  | false, true => some above
  | true, true =>
    let down := middle - below * unit
    let up := above * unit - middle
    if down < up || (down == up && below % 2 == 0) then some below else some above

/-- The least `p` with `mantissa * 2 ^ exponent < 10 ^ p`. -/
def decimalPoint (mantissa : Nat) (exponent : Int) : Int :=
  let (num, den) := scale 2 mantissa exponent
  ((Nat.toDigits 10 (num * Nat.pow 10 400 / den)).length : Int) - 400

/-- The best decimal of at most `tries` digits, counted from `digits` on. -/
def shortestFrom (i : Interval) (exponent point : Int) (digits : Nat) : Nat → Option (Nat × Int)
  | 0 => none
  | tries + 1 =>
    let place := point - digits
    let (tens, untens) := scale 10 1 place
    let (twos, untwos) := scale 2 1 (exponent - 2)
    match bestMultiple? i (twos * untens) (tens * untwos) with
    | some n => some (n, place)
    | none => shortestFrom i exponent point (digits + 1) tries

/-- The shortest decimal of a positive number `mantissa * 2 ^ exponent`; 17 digits always do. -/
def shortest (mantissa : Nat) (exponent : Int) : Decimal :=
  let point := decimalPoint mantissa exponent
  match shortestFrom (intervalOf mantissa exponent) exponent point 1 17 with
  | none => ⟨[], point⟩
  | some (n, place) =>
    let digits := VersionGate.Decimal.ofNat n
    ⟨(digits.reverse.dropWhile (· == '0')).reverse, digits.length + place⟩

/-- How decimals are laid out. -/
structure Layout where
  /-- The least exponent of the leading digit that is written with a point in place. -/
  leastPositional : Int
  /-- The greatest exponent of the leading digit that is written with a point in place. -/
  greatestPositional : Int
  /-- The least number of digits of a written exponent. -/
  exponentDigits : Nat
  nan : String
  infinity : String

/-- A decimal with its point in place, at least one digit on either side of it. -/
def Decimal.positional (d : Decimal) : List Char :=
  let zeros := List.replicate (-d.point).toNat '0'
  let whole := d.digits.take d.point.toNat ++ List.replicate (d.point.toNat - d.digits.length) '0'
  let part := zeros ++ d.digits.drop d.point.toNat
  (if whole.isEmpty then ['0'] else whole) ++ '.' :: (if part.isEmpty then ['0'] else part)

/-- A decimal with one digit before the point and an exponent with its sign. -/
def Decimal.scientific (exponentDigits : Nat) (d : Decimal) : List Char :=
  let exponent := d.point - 1
  let sign := if exponent < 0 then '-' else '+'
  let part := d.digits.drop 1
  d.digits.take 1 ++ (if part.isEmpty then [] else '.' :: part) ++ 'e' :: sign ::
    (VersionGate.Decimal.padded exponentDigits exponent.natAbs).toList

/-- The text of a number. -/
def format (layout : Layout) (x : Binary64) : String :=
  let signed (s : String) := if x.isNegative then "-" ++ s else s
  match x with
  | nan => layout.nan
  | infinite _ => signed layout.infinity
  | finite _ mantissa exponent =>
    let d := if mantissa = 0 then ⟨['0'], 1⟩ else shortest mantissa exponent
    signed <| String.ofList <|
      if layout.leastPositional < d.point && d.point ≤ layout.greatestPositional + 1 then
        d.positional
      else d.scientific layout.exponentDigits

/-- Numbers in data are written with the point in place from `0.0001` up to sixteen whole digits,
and otherwise with an exponent of at least two digits. -/
def dataLayout : Layout := ⟨-4, 15, 2, "nan", "inf"⟩

/-- The text of a number in data. -/
def text (x : Binary64) : String := x.format dataLayout

end VersionGate.Data.Binary64

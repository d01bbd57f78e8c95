/-!
# Binary floating-point numbers

Floating-point numbers of 64 bits as exact dyadic fractions: a finite one is a mantissa below `2^53`
times a power of two, with `2^52` reached unless the exponent is the least one. Every operation is
the exact result rounded once, to the nearest number and between two equally near ones to the one
with the even mantissa; what is too large becomes infinite.
-/

namespace VersionGate.Data

/-- A binary floating-point number of 64 bits. -/
inductive Binary64 where
  | nan
  | infinite (negative : Bool)
  /-- The number `± mantissa * 2 ^ exponent`. -/
  | finite (negative : Bool) (mantissa : Nat) (exponent : Int)
  deriving DecidableEq, Repr

namespace Binary64

/-- The least exponent of a finite number. -/
def leastExponent : Int := -1074

/-- The greatest exponent of a finite number. -/
def greatestExponent : Int := 971

/-- The number of bits of a mantissa. -/
def precision : Nat := 53

/-- The least mantissa that has all bits. -/
def leastFull : Nat := Nat.pow 2 (precision - 1)

/-- The zero with the given sign. -/
def zero (negative : Bool) : Binary64 := .finite negative 0 leastExponent

/-- `n` as the numerator and denominator of `n * b ^ e`. -/
def scale (b : Nat) (n : Nat) : Int → Nat × Nat
  | .ofNat e => (n * Nat.pow b e, 1)
  | .negSucc e => (n, Nat.pow b (e + 1))

/-- The whole number nearest to `num / den`, the even one of two. -/
def roundDiv (num den : Nat) : Nat :=
  let q := num / den
  let r := 2 * (num % den)
  if r < den || (r == den && q % 2 == 0) then q else q + 1

/-- The greatest `e` with `2 ^ e ≤ num / den`, for positive `num` and `den`. -/
def floorLog2 (num den : Nat) : Int :=
  let e : Int := (num.log2 : Int) - den.log2
  let (low, unit) := scale 2 den e
  if low ≤ num * unit then e else e - 1

/-- The number nearest to `num / den`, with a sign. -/
def ofRatio (negative : Bool) (num den : Nat) : Binary64 :=
  if num = 0 then zero negative
  else
    let exponent := max (floorLog2 num den - (precision - 1)) leastExponent
    let (n, unit) := scale 2 num (-exponent)
    let rounded := roundDiv n (den * unit)
    let (mantissa, exponent) :=
      if rounded = 2 * leastFull then (leastFull, exponent + 1) else (rounded, exponent)
    if greatestExponent < exponent then .infinite negative
    else .finite negative mantissa exponent

/-- The number nearest to `digits * 10 ^ exponent`, with a sign. Where the order of magnitude alone
decides, the power is not worked out. -/
def ofDecimal (negative : Bool) (digits : Nat) (exponent : Int) : Binary64 :=
  let places := (Nat.toDigits 10 digits).length + exponent
  if digits = 0 || places < -400 then zero negative
  else if 400 < places then .infinite negative
  else
    let (num, den) := scale 10 digits exponent
    ofRatio negative num den

/-- The number nearest to a natural number. -/
def ofNat (n : Nat) : Binary64 := ofRatio false n 1

/-- Whether a number has a minus sign. -/
def isNegative : Binary64 → Bool
  | nan => false
  | infinite negative | finite negative .. => negative

/-- Whether a number is a zero of either sign. -/
def isZero : Binary64 → Bool
  | finite _ mantissa _ => mantissa == 0
  | _ => false

/-- Changes the sign of a number. -/
def neg : Binary64 → Binary64
  | nan => nan
  | infinite negative => infinite !negative
  | finite negative mantissa exponent => finite (!negative) mantissa exponent

/-- The product of two numbers. -/
def mul : Binary64 → Binary64 → Binary64
  | finite s m e, finite t n f =>
    let (num, den) := scale 2 (m * n) (e + f)
    ofRatio (s != t) num den
  | x, y =>
    if x = nan || y = nan || x.isZero || y.isZero then nan
    else infinite (x.isNegative != y.isNegative)

/-- The sum of two numbers. -/
def add : Binary64 → Binary64 → Binary64
  | finite s m e, finite t n f =>
    let least := min e f
    let signed (negative : Bool) (m : Nat) (e : Int) : Int :=
      let k : Int := m * Nat.pow 2 (e - least).toNat
      if negative then -k else k
    let sum := signed s m e + signed t n f
    if sum = 0 then zero (s && t)
    else
      let (num, den) := scale 2 sum.natAbs least
      ofRatio (sum < 0) num den
  | infinite s, infinite t => if s = t then infinite s else nan
  | infinite s, finite .. | finite .., infinite s => infinite s
  | nan, _ | _, nan => nan

/-- Whether a number is exactly the given integer. -/
def isInt (x : Binary64) (n : Int) : Bool :=
  match x with
  | finite negative m e =>
    let (num, den) := scale 2 m e
    (if negative then -(num : Int) else num) == n * den
  | _ => false

/-- Whether two numbers are equal as numbers: the two zeros are, and a NaN is taken to be itself. -/
def sameNumber (x y : Binary64) : Bool := x == y || (x.isZero && y.isZero)

end Binary64

end VersionGate.Data

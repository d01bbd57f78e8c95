import VersionGate.Data.Datum
import VersionGate.Text.Base64
import VersionGate.Text.Digit
import VersionGate.Text.LowerCase
import VersionGate.Text.Pieces
import VersionGate.Yaml.Fault
import VersionGate.Yaml.Tag

/-!
# The values of scalars

What the text of a scalar stands for, given its tag. Low lines in numbers do not matter. Integers
come in four bases and in places of sixty, numbers with a point in places of sixty too; the products
and sums that these take are rounded one by one.
-/

namespace VersionGate.Yaml.ScalarValue

open Data

/-- Whether a character is a blank of ASCII. -/
def isBlank (c : Char) : Bool := c = ' ' || ('\t' ≤ c && c ≤ '\r')

/-- The blanks outside of ASCII. -/
def wideBlanks : List (Nat × Nat) :=
  [(0x85, 0x85), (0xa0, 0xa0), (0x1680, 0x1680), (0x2000, 0x200a), (0x2028, 0x2029),
   (0x202f, 0x202f), (0x205f, 0x205f), (0x3000, 0x3000)]

/-- The character of ASCII that counts for a blank or digit of any script. -/
def plainChar (c : Char) : Char :=
  if c.toNat < 128 then c
  else if Text.inRanges wideBlanks c.toNat then ' '
  else ((Text.digit? c).map Text.asciiDigit).getD c

/-- The text of a number in ASCII, without the blanks at both ends. -/
def plain (cs : List Char) : List Char :=
  (((cs.map plainChar).dropWhile isBlank).reverse.dropWhile isBlank).reverse

/-- A sign and what follows it: whether it is a minus. -/
def sign : List Char → Bool × List Char
  | '-' :: cs => (true, cs)
  | '+' :: cs => (false, cs)
  | cs => (false, cs)

/-- The integer with the given sign. -/
def signed (negative : Bool) (n : Int) : Int := if negative then -n else n

/-- Takes off the sign that a base has in front of its digits. -/
def dropBaseSign (base : Nat) : List Char → List Char
  | '0' :: c :: cs =>
    if (base = 2 && (c = 'b' || c = 'B')) || (base = 8 && (c = 'o' || c = 'O'))
        || (base = 16 && (c = 'x' || c = 'X')) then cs
    else '0' :: c :: cs
  | cs => cs

/-- Whether a character is a digit of a base up to ten, or of base sixteen. -/
def isDigitOf (base : Nat) (c : Char) : Bool :=
  Text.isHexDigit c && Text.hexDigitValue c < base

/-- Reads an integer to a base, with blanks around it and a sign. To base ten too many digits are
refused whatever comes behind them. -/
def integer (base : Nat) (cs : List Char) : Except Fault Int :=
  let (negative, rest) := sign (plain cs)
  let (digits, rest) := (dropBaseSign base rest).span (isDigitOf base)
  let refused : Except Fault Int := .error (.noInteger base (String.ofList cs))
  if base = 10 then
    match Decimal.read digits with
    | .ok n => if digits.isEmpty || !rest.isEmpty then refused else .ok (signed negative n)
    | .error e => .error (.tooLong e)
  else if digits.isEmpty || !rest.isEmpty then refused
  else .ok (signed negative (digits.foldl (fun n c => base * n + Text.hexDigitValue c) 0 : Nat))

/-- Reads a number with or without a point and an exponent, with blanks around it and a sign. -/
def number (cs : List Char) : Except Fault Binary64 :=
  let refused : Except Fault Binary64 := .error (.noNumber (String.ofList cs))
  let (negative, rest) := sign (plain cs)
  let word := Text.lower (String.ofList rest)
  if word = "inf" || word = "infinity" then .ok (.infinite negative)
  else if word = "nan" then .ok .nan
  else
    let (whole, rest) := rest.span Char.isDigit
    let (part, rest) := match rest with
      | '.' :: rest => rest.span Char.isDigit
      | rest => ([], rest)
    let value (exponent : Int) : Except Fault Binary64 :=
      .ok (.ofDecimal negative (Decimal.value (whole ++ part)) (exponent - part.length))
    if whole.isEmpty && part.isEmpty then refused
    else match rest with
      | [] => value 0
      | e :: rest =>
        let (minus, digits) := sign rest
        if (e = 'e' || e = 'E') && !digits.isEmpty && digits.all Char.isDigit then
          value (signed minus (Decimal.value digits))
        else refused

/-- Adds up places of sixty, the lowest first. -/
def sixtieths : Nat → List Int → Int
  | _, [] => 0
  | unit, n :: ns => n * unit + sixtieths (60 * unit) ns

/-- Adds up places of sixty to a number, the lowest first, rounding every product and every sum. -/
def roundedSixtieths (sum : Binary64) : Nat → List Binary64 → Except Fault Binary64
  | _, [] => .ok sum
  | unit, x :: xs =>
    match Binary64.ofNat unit with
    | .infinite _ => .error .tooLarge
    | place => roundedSixtieths (sum.add (x.mul place)) (60 * unit) xs

/-- Takes the low lines out of a text. -/
def dropLow (cs : List Char) : List Char := cs.filter (· != '_')

/-- The value of an integer scalar. -/
def int (text : String) : Except Fault Int := do
  let cs := dropLow text.toList
  if cs.isEmpty then .error .emptyNumber
  else do
    let (negative, cs) := sign cs
    let n ← match cs with
      | ['0'] => .ok 0
      | '0' :: 'b' :: digits => integer 2 digits
      | '0' :: 'x' :: digits => integer 16 digits
      | '0' :: _ => integer 8 cs
      | [] => .error .emptyNumber
      | _ =>
        if cs.contains ':' then do
          let places ← (Text.pieces (· == ':') cs).mapM (integer 10)
          .ok (sixtieths 1 places.reverse)
        else integer 10 cs
    .ok (signed negative n)

/-- Whether a number scalar is the word for what is not a number, with any sign. -/
def isNanWord (text : String) : Bool :=
  (sign (Text.lower (String.ofList (dropLow text.toList))).toList).2 = ".nan".toList

/-- The value of a number scalar. -/
def float (text : String) : Except Fault Binary64 := do
  let cs := (Text.lower (String.ofList (dropLow text.toList))).toList
  if cs.isEmpty then .error .emptyNumber
  else do
    let (negative, cs) := sign cs
    let x ←
      if cs = ".inf".toList then .ok (.infinite false)
      else if cs = ".nan".toList then .ok .nan
      else if cs.contains ':' then do
        let places ← (Text.pieces (· == ':') cs).mapM number
        roundedSixtieths (Binary64.zero false) 1 places.reverse
      else number cs
    .ok (if negative then x.neg else x)

/-- The words for truth values, in lower case. -/
def truths : List (String × Bool) :=
  [("yes", true), ("no", false), ("true", true), ("false", false), ("on", true), ("off", false)]

/-- The value of a truth value scalar. -/
def bool (text : String) : Except Fault Bool :=
  let word := Text.lower text
  match truths.lookup word with
  | some b => .ok b
  | none => .error (.noTruth word)

/-- The value of a timestamp scalar. -/
def timestamp (text : String) : Except Fault Data.Scalar :=
  match Timestamp.read? (Tag.dropFinalBreak text.toList) with
  | none => .error .noTimestamp
  | some t =>
    match t.value with
    | .ok (.inl d) => .ok (.date d)
    | .ok (.inr t) => .ok (.datetime t)
    | .error fault => .error (.calendar fault)

/-- The value of a scalar that holds bytes as letters. All letters have to be in ASCII. -/
def binary (text : String) : Except Fault (List UInt8) :=
  if text.toList.all fun c => c.toNat < 0x80 then
    match Text.Base64.decode text.toList with
    | some bytes => .ok bytes
    | none => .error .form
  else .error .form

/-- The value of a scalar. Tags of data with parts, and those without a meaning, have none. -/
def ofText (tag : Tag) (text : String) : Except Fault Data.Scalar :=
  match tag with
  | .null => .ok .null
  | .bool => (bool text).map .bool
  | .int => (int text).map .int
  | .float => (float text).map .float
  | .timestamp => timestamp text
  | .text => .ok (.text text)
  | .binary => (binary text).map .bytes
  | .merge | .value | .list | .map | .set | .pairs | .other => .error .form

end VersionGate.Yaml.ScalarValue

import VersionGate.Text.Pieces
import VersionGate.Yaml.Timestamp

/-!
# Tags

A tag says what a node of a document is. A plain scalar without one is resolved by its text: `yes`
is a truth value, `0x1F` an integer, `1.5` a number, `2001-12-14` a day, nothing at all is null, and
what is none of these is text. One line feed at the end of the text does not matter.
-/

namespace VersionGate.Yaml

/-- What a node is. -/
inductive Tag where
  | null
  | bool
  | int
  | float
  | timestamp
  /-- A key that takes in the fields of other maps. -/
  | merge
  /-- A key for the value of a map as a whole. -/
  | value
  | text
  /-- Bytes as letters. -/
  | binary
  | list
  | map
  /-- A map of which only the keys count. -/
  | set
  /-- A list of maps with one field each, in the order of the fields or without one. -/
  | pairs
  /-- A tag that has no meaning here. -/
  | other
  deriving DecidableEq, Repr

namespace Tag

/-- What the tags of the standard types begin with. -/
def standardRoot : String := "tag:yaml.org,2002:"

/-- The standard types by name. -/
def standard : List (String × Tag) :=
  [("null", null), ("bool", bool), ("int", int), ("float", float), ("timestamp", timestamp),
   ("merge", merge), ("value", value), ("str", text), ("binary", binary), ("seq", list),
   ("map", map), ("set", set), ("omap", pairs), ("pairs", pairs)]

/-- The meaning of a tag that is written out. -/
def ofText (s : String) : Tag :=
  ((standard.find? fun (name, _) => standardRoot ++ name == s).map (·.2)).getD other

/-- The words for truth values. -/
def boolWords : List String :=
  ["yes", "Yes", "YES", "no", "No", "NO", "true", "True", "TRUE", "false", "False", "FALSE",
   "on", "On", "ON", "off", "Off", "OFF"]

/-- The words for null. -/
def nullWords : List String := ["", "~", "null", "Null", "NULL"]

/-- Takes a sign off the front of a text. -/
def dropSign : List Char → List Char
  | '+' :: cs | '-' :: cs => cs
  | cs => cs

/-- A digit or an underscore. -/
def isDigitOrLow (c : Char) : Bool := c.isDigit || c = '_'

/-- Whether a text is a digit followed by digits and underscores. -/
def isWhole : List Char → Bool
  | [] => false
  | c :: cs => c.isDigit && cs.all isDigitOrLow

/-- Whether a text is a number below sixty of one or two digits. -/
def isSixtieth : List Char → Bool
  | [c] => c.isDigit
  | [c, d] => '0' ≤ c && c ≤ '5' && d.isDigit
  | _ => false

/-- Whether a text without a sign is an integer: binary, octal, hexadecimal, decimal, or decimal
with further places of sixty. -/
def isUnsignedInt : List Char → Bool
  | '0' :: 'b' :: cs => !cs.isEmpty && cs.all fun c => c = '0' || c = '1' || c = '_'
  | '0' :: 'x' :: cs => !cs.isEmpty && cs.all fun c => isDigitOrLow c
      || ('a' ≤ c && c ≤ 'f') || ('A' ≤ c && c ≤ 'F')
  | '0' :: cs => cs.all fun c => ('0' ≤ c && c ≤ '7') || c = '_'
  | cs =>
    match Text.pieces (· == ':') cs with
    | [] => false
    | first :: rest => isWhole first && rest.all isSixtieth

/-- Whether a text is nothing or an exponent with its sign. -/
def isExponent : List Char → Bool
  | [] => true
  | e :: s :: cs =>
    (e = 'e' || e = 'E') && (s = '+' || s = '-') && !cs.isEmpty && cs.all Char.isDigit
  | _ => false

/-- Whether a text is digits and underscores and perhaps an exponent. -/
def isFraction (cs : List Char) : Bool := isExponent (cs.dropWhile isDigitOrLow)

/-- The words for infinity. -/
def infinityWords : List String := [".inf", ".Inf", ".INF"]

/-- The words for what is not a number. -/
def nanWords : List String := [".nan", ".NaN", ".NAN"]

/-- Whether a text is a floating-point number. It has a point, and no sign before a leading one. -/
def isFloat (cs : List Char) : Bool :=
  infinityWords.contains (String.ofList (dropSign cs)) || nanWords.contains (String.ofList cs)
    || match cs with
      | '.' :: c :: rest => c.isDigit && isFraction rest
      | _ =>
        match Text.cutAt '.' (dropSign cs) with
        | none => false
        | some (whole, part) =>
          match Text.pieces (· == ':') whole with
          | [] => false
          | [whole] => isWhole whole && isFraction part
          | first :: rest => isWhole first && rest.all isSixtieth && part.all isDigitOrLow

/-- Whether a text is a timestamp that needs no tag. -/
def isTimestamp (cs : List Char) : Bool := (Timestamp.read? cs).any (·.isEvident)

/-- Takes one line feed off the end of a text. -/
def dropFinalBreak (cs : List Char) : List Char :=
  if cs.getLast? = some '\n' then cs.dropLast else cs

/-- What a plain scalar is. -/
def resolve (cs : List Char) : Tag :=
  if cs = ['\n'] then text
  else
    let cs := dropFinalBreak cs
    let s := String.ofList cs
    if boolWords.contains s then bool
    else if isFloat cs then float
    else if isUnsignedInt (dropSign cs) then int
    else if s = "<<" then merge
    else if nullWords.contains s then null
    else if isTimestamp cs then timestamp
    else if s = "=" then value
    else if ["!", "&", "*"].contains s then other
    else text

end Tag

end VersionGate.Yaml

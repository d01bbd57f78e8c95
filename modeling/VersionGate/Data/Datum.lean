import VersionGate.Data.Calendar
import VersionGate.Data.Shortest
import VersionGate.Kind
import VersionGate.Text.Quoted

/-!
# Loaded data

What a data file holds: scalars, lists, maps from scalars to data, in order, sets of scalars, and
lists of pairs. Data from a file may contain itself; then it is unfolded a few times over, and what
may occur inside itself carries a label by which one notices that it is the same again.

A datum has two texts. `text` is for reading on its own; `shown` marks off texts by quotes and names
dates as what they are, and is used for everything inside a list or a map.
-/

namespace VersionGate.Data

/-- A datum without parts. -/
inductive Scalar where
  | null
  | bool (b : Bool)
  | int (n : Int)
  | float (x : Binary64)
  | text (s : String)
  | bytes (bs : List UInt8)
  | date (d : Date)
  | datetime (t : DateTime)
  deriving DecidableEq, Repr

/-- A piece of loaded data. -/
inductive Datum where
  | scalar (s : Scalar)
  | list (label : Option Nat) (items : List Datum)
  | map (label : Option Nat) (fields : List (Scalar × Datum))
  /-- The elements are in the order in which they come out. -/
  | set (elements : List Scalar)
  | pairs (label : Option Nat) (items : List (Datum × Datum))
  deriving Repr

namespace Scalar

/-- The kind of a scalar. -/
def kind : Scalar → Kind
  | null => .null
  | bool _ => .bool
  | int _ => .int
  | float _ => .float
  | text _ => .text
  | bytes _ => .bytes
  | date _ => .date
  | datetime _ => .datetime

/-- The scalars that count as nothing: no value, false, zero, the empty text and no bytes. -/
def isFalsy : Scalar → Bool
  | null => true
  | bool b => !b
  | int n => n == 0
  | float x => x.isZero
  | text s => s == ""
  | bytes bs => bs.isEmpty
  | date _ | datetime _ => false

/-- The number that a scalar counts as when keys are compared. -/
def asInt? : Scalar → Option Int
  | bool b => some (if b then 1 else 0)
  | int n => some n
  | _ => none

/-- Whether two scalars are the same key of a map. Numbers are by value, whatever their kind. -/
def sameKey : Scalar → Scalar → Bool
  | float x, float y => x.sameNumber y
  | datetime s, datetime t => s.sameMoment t
  | float x, k | k, float x => (k.asInt?.map x.isInt).getD false
  | k, l =>
    match k.asInt?, l.asInt? with
    | some m, some n => m == n
    | _, _ => k == l

/-- The text of a scalar on its own. -/
def plainText : Scalar → Except Decimal.TooLong String
  | null => .ok "None"
  | bool b => .ok (if b then "True" else "False")
  | int n => Decimal.write n
  | float x => .ok x.text
  | text s => .ok s
  | bytes bs => .ok (Text.quotedBytes bs)
  | date d => .ok d.text
  | datetime t => .ok t.text

/-- The text of a scalar inside other data. -/
def shown : Scalar → Except Decimal.TooLong String
  | text s => .ok (Text.quoted s)
  | date d => .ok d.shown
  | datetime t => .ok t.shown
  | k => k.plainText

end Scalar

namespace Datum

/-- The kind of a datum. -/
def kind : Datum → Kind
  | scalar s => s.kind
  | list .. | pairs .. => .list
  | map .. => .map
  | set _ => .set

/-- The datum that is nothing. -/
def null : Datum := .scalar .null

/-- The texts of parts with commas between them. -/
def joined (parts : List String) : String := ", ".intercalate parts

/-- Whether a label is one of those of the data that something is inside of. -/
def isInside (inside : List Nat) (label : Option Nat) : Bool := label.any inside.contains

/-- The texts of the elements of a set. -/
def shownElements : List Scalar → Except Decimal.TooLong (List String)
  | [] => .ok []
  | k :: ks => do
    let first ← k.shown
    let rest ← shownElements ks
    return first :: rest

mutual

/-- The text of a datum inside other data, when what has a label in `inside` is being shown. -/
def shownIn (inside : List Nat) : Datum → Except Decimal.TooLong String
  | .scalar s => s.shown
  | .list label items =>
    if isInside inside label then .ok "[...]"
    else do return "[" ++ joined (← shownItems (label.toList ++ inside) items) ++ "]"
  | .map label fields =>
    if isInside inside label then .ok "\x7b...\x7d"
    else do return "\x7b" ++ joined (← shownFields (label.toList ++ inside) fields) ++ "\x7d"
  | .set [] => .ok "set()"
  | .set (k :: ks) => do return "\x7b" ++ joined (← shownElements (k :: ks)) ++ "\x7d"
  | .pairs label items =>
    if isInside inside label then .ok "[...]"
    else do return "[" ++ joined (← shownPairs (label.toList ++ inside) items) ++ "]"

/-- The texts of the items of a list. -/
def shownItems (inside : List Nat) : List Datum → Except Decimal.TooLong (List String)
  | [] => .ok []
  | d :: ds => do
    let first ← shownIn inside d
    let rest ← shownItems inside ds
    return first :: rest

/-- The texts of the fields of a map. -/
def shownFields (inside : List Nat) :
    List (Scalar × Datum) → Except Decimal.TooLong (List String)
  | [] => .ok []
  | (k, d) :: rest => do
    let key ← k.shown
    let value ← shownIn inside d
    let rest ← shownFields inside rest
    return (key ++ ": " ++ value) :: rest

/-- The texts of pairs. -/
def shownPairs (inside : List Nat) : List (Datum × Datum) → Except Decimal.TooLong (List String)
  | [] => .ok []
  | (k, d) :: rest => do
    let key ← shownIn inside k
    let value ← shownIn inside d
    let rest ← shownPairs inside rest
    return ("(" ++ key ++ ", " ++ value ++ ")") :: rest

end

/-- The text of a datum inside other data. -/
def shown (d : Datum) : Except Decimal.TooLong String := shownIn [] d

/-- The text of a datum on its own. -/
def text : Datum → Except Decimal.TooLong String
  | .scalar s => s.plainText
  | d => d.shown

/-- What a map holds under a text. -/
def field? (key : String) : List (Scalar × Datum) → Option Datum
  | [] => none
  | (k, d) :: rest => if k = .text key then some d else field? key rest

end Datum

end VersionGate.Data

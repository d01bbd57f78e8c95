import VersionGate.Json.Text

/-!
# Reading JSON

The grammar of JSON with `NaN`, `Infinity` and `-Infinity` as numbers. A number with neither a
fraction nor an exponent is an integer of any size, up to the longest numeral. Of fields with one
key the last counts, at the place of the first. The text holds one value, and blanks around it.
-/

namespace VersionGate.Json

/-- Why a text is not read as JSON. -/
inductive ReadFault where
  /-- The text is not JSON. -/
  | form
  /-- An integer is too long. -/
  | tooLong (numeral : Decimal.TooLong)
  deriving DecidableEq, Repr

/-- The blanks of JSON. -/
def isBlank (c : Char) : Bool := c = ' ' || c = '\t' || c = '\n' || c = '\r'

/-- Passes over blanks. -/
def skipBlanks (cs : List Char) : List Char := cs.dropWhile isBlank

/-- What follows a word at the front of a text. -/
def afterWord? : List Char → List Char → Option (List Char)
  | [], cs => some cs
  | w :: ws, c :: cs => if w = c then afterWord? ws cs else none
  | _ :: _, [] => none

/-- The words that are values. -/
def words : List (String × Json) :=
  [("null", .null), ("true", .bool true), ("false", .bool false), ("NaN", .float .nan),
   ("Infinity", .float (.infinite false)), ("-Infinity", .float (.infinite true))]

/-- Reads a word that is a value. -/
def readWord? (cs : List Char) : Option (Json × List Char) :=
  words.findSome? fun (word, j) => (afterWord? word.toList cs).map fun rest => (j, rest)

/-- The digits at the front of a text and what follows them. -/
def digits (cs : List Char) : List Char × List Char := cs.span Char.isDigit

/-- The whole part of a number: a single zero, or digits of which the first is none. -/
def wholePart? : List Char → Option (List Char × List Char)
  | '0' :: cs => some (['0'], cs)
  | cs =>
    match digits cs with
    | ([], _) => none
    | (ds, rest) => some (ds, rest)

/-- The fraction of a number, empty if none follows. -/
def fraction (cs : List Char) : List Char × List Char :=
  match cs with
  | '.' :: rest =>
    match digits rest with
    | ([], _) => ([], cs)
    | (ds, rest) => (ds, rest)
  | _ => ([], cs)

/-- A sign and what follows it: whether it is a minus. -/
def sign : List Char → Bool × List Char
  | '-' :: cs => (true, cs)
  | '+' :: cs => (false, cs)
  | cs => (false, cs)

/-- The exponent of a number, if one follows. -/
def exponent? (cs : List Char) : Option (Int × List Char) :=
  match cs with
  | [] => none
  | c :: rest =>
    if c = 'e' || c = 'E' then
      let (negative, rest) := sign rest
      match digits rest with
      | ([], _) => none
      | (ds, rest) =>
        let n : Int := Decimal.value ds
        some (if negative then -n else n, rest)
    else none

/-- Reads a number. -/
def readNumber (cs : List Char) : Except ReadFault (Json × List Char) :=
  let (negative, cs) := match cs with
    | '-' :: rest => (true, rest)
    | _ => (false, cs)
  match wholePart? cs with
  | none => .error .form
  | some (whole, rest) =>
    let (part, rest) := fraction rest
    match part, exponent? rest with
    | [], none =>
      match Decimal.read whole with
      | .error e => .error (.tooLong e)
      | .ok n => .ok (.int (if negative then -n else n), rest)
    | part, power =>
      let (power, rest) := power.getD (0, rest)
      let value := Decimal.value (whole ++ part)
      .ok (.float (.ofDecimal negative value (power - part.length)), rest)

/-- Reads the key of a field and the colon after it, with the blanks around the colon. -/
def readKey : List Char → Except ReadFault (String × List Char)
  | '"' :: rest =>
    match decodeString? rest with
    | none => .error .form
    | some (key, rest) =>
      match skipBlanks rest with
      | ':' :: rest => .ok (String.ofList key, skipBlanks rest)
      | _ => .error .form
  | _ => .error .form

mutual

/-- Reads a value. -/
def readValue : Nat → List Char → Except ReadFault (Json × List Char)
  | 0, _ => .error .form
  | steps + 1, cs =>
    match cs with
    | '"' :: rest =>
      match decodeString? rest with
      | none => .error .form
      | some (s, rest) => .ok (.string (String.ofList s), rest)
    | '[' :: rest =>
      match skipBlanks rest with
      | ']' :: rest => .ok (.array [], rest)
      | rest => do
        let (items, rest) ← readItems steps rest
        .ok (.array items, rest)
    | '\x7b' :: rest =>
      match skipBlanks rest with
      | '\x7d' :: rest => .ok (.object [], rest)
      | rest => do
        let (fields, rest) ← readFields steps [] rest
        .ok (.object fields, rest)
    | cs =>
      match readWord? cs with
      | some found => .ok found
      | none => readNumber cs

/-- Reads the items of an array up to its end. -/
def readItems : Nat → List Char → Except ReadFault (List Json × List Char)
  | 0, _ => .error .form
  | steps + 1, cs => do
    let (item, rest) ← readValue steps cs
    match skipBlanks rest with
    | ']' :: rest => .ok ([item], rest)
    | ',' :: rest => do
      let (items, rest) ← readItems steps (skipBlanks rest)
      .ok (item :: items, rest)
    | _ => .error .form

/-- Reads the fields of an object up to its end, after the ones that it has already. -/
def readFields :
    Nat → List (String × Json) → List Char → Except ReadFault (List (String × Json) × List Char)
  | 0, _, _ => .error .form
  | steps + 1, before, cs => do
    let (key, rest) ← readKey cs
    let (j, rest) ← readValue steps rest
    let fields := setField key j before
    match skipBlanks rest with
    | '\x7d' :: rest => .ok (fields, rest)
    | ',' :: rest => readFields steps fields (skipBlanks rest)
    | _ => .error .form

end

/-- Reads a JSON text. Between two steps of one kind at least one character is taken, so twice as
many steps as there are characters are enough. -/
def readChars (cs : List Char) : Except ReadFault Json := do
  let (j, rest) ← readValue (2 * cs.length + 1) (skipBlanks cs)
  match skipBlanks rest with
  | [] => .ok j
  | _ => .error .form

/-- Reads a JSON text. -/
def read (s : String) : Except ReadFault Json := readChars s.toList

end VersionGate.Json

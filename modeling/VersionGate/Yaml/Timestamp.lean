import VersionGate.Data.Calendar

/-!
# Timestamps

A timestamp is a day, `2001-12-14`, perhaps with a time and the time perhaps with a fraction and a
zone: `2001-12-14 21:59:43.10 -05:00`. `Timestamp.read?` knows the form of a timestamp;
`Timestamp.value` finds out whether there is such a day and time.
-/

namespace VersionGate.Yaml

/-- The parts of a timestamp's time. -/
structure TimeParts where
  hour : List Char
  minute : List Char
  second : List Char
  fraction : List Char
  /-- The distance of the zone in minutes, if there is a zone. -/
  zone : Option Int
  deriving DecidableEq, Repr

/-- The parts of a timestamp. -/
structure Timestamp where
  year : List Char
  month : List Char
  day : List Char
  time : Option TimeParts
  deriving DecidableEq, Repr

namespace Timestamp

/-- Takes at least `least` and at most `most` digits off the front of a text. -/
def takeDigits? (least most : Nat) (cs : List Char) : Option (List Char × List Char) :=
  let ds := (cs.take most).takeWhile Char.isDigit
  if least ≤ ds.length then some (ds, cs.drop ds.length) else none

/-- Takes a given character off the front of a text. -/
def takeChar? (c : Char) : List Char → Option (List Char)
  | d :: ds => if d = c then some ds else none
  | [] => none

/-- Passes over spaces and tabs. -/
def skipBlanks (cs : List Char) : List Char := cs.dropWhile fun c => c = ' ' || c = '\t'

/-- Reads the zone at the end of a timestamp, after its blanks. -/
def readZone? : List Char → Option Int
  | ['Z'] => some 0
  | c :: cs => do
    let sign : Int ← if c = '+' then some 1 else if c = '-' then some (-1) else none
    let (hours, rest) ← takeDigits? 1 2 cs
    let minutes ← match rest with
      | [] => some []
      | _ => do
        let rest ← takeChar? ':' rest
        let (minutes, rest) ← takeDigits? 2 2 rest
        if rest.isEmpty then some minutes else none
    some (sign * (Decimal.value hours * 60 + Decimal.value minutes : Nat))
  | [] => none

/-- Reads the time of a timestamp, which ends it. -/
def readTime? (cs : List Char) : Option TimeParts := do
  let (hour, rest) ← takeDigits? 1 2 cs
  let rest ← takeChar? ':' rest
  let (minute, rest) ← takeDigits? 2 2 rest
  let rest ← takeChar? ':' rest
  let (second, rest) ← takeDigits? 2 2 rest
  let (fraction, rest) := match rest with
    | '.' :: rest => rest.span Char.isDigit
    | _ => ([], rest)
  if rest.isEmpty then some ⟨hour, minute, second, fraction, none⟩
  else do
    let zone ← readZone? (skipBlanks rest)
    some ⟨hour, minute, second, fraction, some zone⟩

/-- Reads a timestamp. -/
def read? (cs : List Char) : Option Timestamp := do
  let (year, rest) ← takeDigits? 4 4 cs
  let rest ← takeChar? '-' rest
  let (month, rest) ← takeDigits? 1 2 rest
  let rest ← takeChar? '-' rest
  let (day, rest) ← takeDigits? 1 2 rest
  match rest with
  | [] => some ⟨year, month, day, none⟩
  | c :: more =>
    let afterGap ←
      if c = 'T' || c = 't' then some more
      else if c = ' ' || c = '\t' then some (skipBlanks more)
      else none
    let time ← readTime? afterGap
    some ⟨year, month, day, some time⟩

/-- Whether a timestamp is taken for one without being tagged: a day on its own needs two digits for
its month and its day. -/
def isEvident (t : Timestamp) : Bool :=
  t.time.isSome || (t.month.length == 2 && t.day.length == 2)

/-- The first six digits of a fraction as microseconds. -/
def microseconds (fraction : List Char) : Nat :=
  let digits := fraction.take 6
  Decimal.value (digits ++ List.replicate (6 - digits.length) '0')

/-- The day or the time of a timestamp. -/
def value (t : Timestamp) : Except Data.CalendarFault (Data.Date ⊕ Data.DateTime) :=
  let n := Decimal.value
  match t.time with
  | none => (Data.Date.make (n t.year) (n t.month) (n t.day)).map .inl
  | some time =>
    (Data.DateTime.make (n t.year) (n t.month) (n t.day) (n time.hour) (n time.minute)
      (n time.second) (microseconds time.fraction) time.zone).map .inr

end Timestamp

end VersionGate.Yaml

import VersionGate.Text.Decimal

/-!
# Dates and times

Days of the calendar and times of day with a zone, from the year 1 to 9999. `Date.make` and
`DateTime.make` accept what exists and name the first part that does not.
-/

namespace VersionGate.Data

/-- Why numbers are no date or time. -/
inductive CalendarFault where
  | year (year : Nat)
  | month
  | day
  | hour
  | minute
  | second
  /-- The zone is a whole day or more away. -/
  | zone (minutes : Int)
  deriving DecidableEq, Repr

/-- A day of the calendar. -/
structure Date where
  year : Nat
  month : Nat
  day : Nat
  deriving DecidableEq, Repr

/-- A time on a day, with the distance of its zone in minutes if it has one. -/
structure DateTime where
  date : Date
  hour : Nat
  minute : Nat
  second : Nat
  microsecond : Nat
  zone : Option Int
  deriving DecidableEq, Repr

namespace Date

/-- Leap years have a 29th of February. -/
def isLeapYear (year : Nat) : Bool :=
  year % 4 == 0 && (year % 100 != 0 || year % 400 == 0)

/-- The number of days of a month. -/
def daysIn (year month : Nat) : Nat :=
  if month = 2 then (if isLeapYear year then 29 else 28)
  else if month = 4 || month = 6 || month = 9 || month = 11 then 30
  else 31

/-- The day with the given numbers. -/
def make (year month day : Nat) : Except CalendarFault Date :=
  if year = 0 || 9999 < year then .error (.year year)
  else if month = 0 || 12 < month then .error .month
  else if day = 0 || daysIn year month < day then .error .day
  else .ok ⟨year, month, day⟩

/-- The number of days before a day, from the first of the year 1 on. -/
def ordinal (d : Date) : Nat :=
  let years := d.year - 1
  let months := ((List.range (d.month - 1)).map fun m => daysIn d.year (m + 1)).foldl (· + ·) 0
  years * 365 + years / 4 - years / 100 + years / 400 + months + (d.day - 1)

/-- The year in four digits, the month and the day in two. -/
def text (d : Date) : String :=
  Decimal.padded 4 d.year ++ "-" ++ Decimal.padded 2 d.month ++ "-" ++ Decimal.padded 2 d.day

end Date

namespace DateTime

/-- A zone has to be less than a day away. -/
def checkZone (zone : Option Int) : Except CalendarFault Unit :=
  match zone with
  | some minutes => if minutes.natAbs < 1440 then .ok () else .error (.zone minutes)
  | none => .ok ()

/-- The time with the given numbers. The zone is looked at first, then the day, then the time. -/
def make (year month day hour minute second microsecond : Nat) (zone : Option Int) :
    Except CalendarFault DateTime := do
  checkZone zone
  let date ← Date.make year month day
  if 23 < hour then .error .hour
  else if 59 < minute then .error .minute
  else if 59 < second then .error .second
  else .ok ⟨date, hour, minute, second, microsecond, zone⟩

/-- Hours and minutes of a zone with a sign. -/
def zoneText (minutes : Int) : String :=
  (if minutes < 0 then "-" else "+") ++ Decimal.padded 2 (minutes.natAbs / 60) ++ ":"
    ++ Decimal.padded 2 (minutes.natAbs % 60)

/-- The day, the time with its fraction if there is one, and the zone if there is one. -/
def text (t : DateTime) : String :=
  t.date.text ++ " " ++ Decimal.padded 2 t.hour ++ ":" ++ Decimal.padded 2 t.minute ++ ":"
    ++ Decimal.padded 2 t.second
    ++ (if t.microsecond = 0 then "" else "." ++ Decimal.padded 6 t.microsecond)
    ++ (t.zone.map zoneText).getD ""

/-- The microsecond that a time is in, counted in its zone, or in the one at zero if it has one. -/
def instant (t : DateTime) : Int :=
  let minutes : Int := (t.date.ordinal * 24 + t.hour) * 60 + t.minute - t.zone.getD 0
  (minutes * 60 + t.second) * 1000000 + t.microsecond

/-- Whether two times are the same moment. A time with a zone and one without never are. -/
def sameMoment (s t : DateTime) : Bool :=
  s.zone.isSome == t.zone.isSome && s.instant == t.instant

end DateTime

/-- A distance of minutes, as days and the seconds that are left, the latter never negative. -/
def spanText (minutes : Int) : String :=
  let days := minutes.fdiv 1440
  let seconds := minutes.fmod 1440 * 60
  let parts := (if days = 0 then [] else ["days=" ++ Decimal.intText days])
    ++ (if seconds = 0 then [] else ["seconds=" ++ Decimal.intText seconds])
  "datetime.timedelta(" ++ (if parts.isEmpty then "0" else ", ".intercalate parts) ++ ")"

/-- The wording of numbers that are no date or time. -/
def CalendarFault.message : CalendarFault → String
  | year y => "year " ++ Decimal.natText y ++ " is out of range"
  | month => "month must be in 1..12"
  | day => "day is out of range for month"
  | hour => "hour must be in 0..23"
  | minute => "minute must be in 0..59"
  | second => "second must be in 0..59"
  | zone minutes =>
    "offset must be a timedelta strictly between -timedelta(hours=24) and timedelta(hours=24), not "
      ++ spanText minutes ++ "."

/-- How a day shows inside other data. -/
def Date.shown (d : Date) : String :=
  "datetime.date(" ++ ", ".intercalate ([d.year, d.month, d.day].map Decimal.natText) ++ ")"

/-- How a time shows inside other data: seconds and microseconds only if they are not zero. -/
def DateTime.shown (t : DateTime) : String :=
  let seconds :=
    if t.microsecond ≠ 0 then [t.second, t.microsecond]
    else if t.second ≠ 0 then [t.second]
    else []
  let numbers := [t.date.year, t.date.month, t.date.day, t.hour, t.minute] ++ seconds
  let zone := match t.zone with
    | none => []
    | some 0 => ["tzinfo=datetime.timezone.utc"]
    | some minutes => ["tzinfo=datetime.timezone(" ++ spanText minutes ++ ")"]
  "datetime.datetime(" ++ ", ".intercalate (numbers.map Decimal.natText ++ zone) ++ ")"

end VersionGate.Data

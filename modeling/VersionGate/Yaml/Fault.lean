import VersionGate.Data.Calendar
import VersionGate.Text.Quoted

/-!
# Why a document cannot be read

Most documents that are refused are simply not well formed. A few are, and still have a scalar whose
text does not stand for any value of its type.
-/

namespace VersionGate.Yaml

/-- Why a document cannot be read. -/
inductive Fault where
  /-- The document is not well formed, or uses what has no meaning here. -/
  | form
  /-- An escape asks for a character that there is not. -/
  | noCharacter (code : Nat)
  /-- A numeral is too long. -/
  | tooLong (numeral : Decimal.TooLong)
  /-- There is no such day or time. -/
  | calendar (fault : Data.CalendarFault)
  /-- A text is no integer to the base. -/
  | noInteger (base : Nat) (text : String)
  /-- A text is no number. -/
  | noNumber (text : String)
  /-- There is no text where a number should be. -/
  | emptyNumber
  /-- A text is no truth value. -/
  | noTruth (text : String)
  /-- A text is no timestamp. -/
  | noTimestamp
  /-- There is a map where a timestamp should be. -/
  | timestampMap
  /-- A number has too many places to be worked out. -/
  | tooLarge
  /-- A map is its own text, so that looking for the text never ends. -/
  | endless
  deriving DecidableEq, Repr

/-- The greatest code of a character. -/
def greatestCode : Nat := 0x10ffff

/-- The greatest number that is looked at as a code at all. -/
def greatestNumber : Nat := 0x7fffffff

/-- The most characters of a quoted text that a wording shows. -/
def shownLength : Nat := 200

/-- The wording of a fault. -/
def Fault.message : Fault → String
  | form => ""
  | noCharacter code =>
    if code ≤ greatestNumber then "chr() arg not in range(0x110000)"
    else "number too large for a character"
  | tooLong numeral => numeral.message
  | calendar fault => fault.message
  | noInteger base text =>
    "invalid literal for int() with base " ++ Decimal.natText base ++ ": "
      ++ String.ofList ((Text.quoted text).toList.take shownLength)
  | noNumber text => "could not convert string to float: " ++ Text.quoted text
  | emptyNumber => "string index out of range"
  | noTruth text => Text.quoted text
  | noTimestamp => "'NoneType' object has no attribute 'groupdict'"
  | timestampMap => "expected string or bytes-like object, got 'list'"
  | tooLarge => "int too large to convert to float"
  | endless => "maximum recursion depth exceeded"

end VersionGate.Yaml

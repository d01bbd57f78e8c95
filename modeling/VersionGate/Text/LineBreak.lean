/-!
# Line breaks

A line of a text file ends with a line feed, a carriage return, or both in this order.
-/

namespace VersionGate.Text

/-- Writes every line break as a line feed. -/
def unifyBreaks : List Char → List Char
  | '\r' :: '\n' :: cs => '\n' :: unifyBreaks cs
  | '\r' :: cs => '\n' :: unifyBreaks cs
  | c :: cs => c :: unifyBreaks cs
  | [] => []

end VersionGate.Text

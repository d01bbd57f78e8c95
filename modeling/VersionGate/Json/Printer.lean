import VersionGate.Json.Text

/-!
# Writing JSON

Every item and every field stands on a line of its own, two spaces further in than the brackets
around it; an empty array or object is a pair of brackets. Texts keep their characters.
-/

namespace VersionGate.Json

/-- Floating-point numbers are written as in other data, with words of their own for what is not
finite. -/
def floatLayout : Data.Binary64.Layout :=
  { Data.Binary64.dataLayout with nan := "NaN", infinity := "Infinity" }

/-- A line break and the blanks that a line starts with. -/
def newLine (indent : Nat) : List Char := '\n' :: List.replicate indent ' '

/-- Parts with a comma and a line break between them. -/
def separated (indent : Nat) : List (List Char) → List Char
  | [] => []
  | [part] => part
  | part :: parts => part ++ ',' :: newLine indent ++ separated indent parts

/-- Parts between brackets, each on a line of its own. -/
def bracketed (left right : Char) (indent : Nat) (parts : List (List Char)) : List Char :=
  if parts.isEmpty then [left, right]
  else left :: newLine (indent + 2) ++ separated (indent + 2) parts ++ newLine indent ++ [right]

mutual

/-- The text of a value in a line that starts with `indent` blanks. -/
def renderAt (indent : Nat) : Json → List Char
  | .null => "null".toList
  | .bool b => (if b then "true" else "false").toList
  | .int n => (Decimal.intText n).toList
  | .float x => (x.format floatLayout).toList
  | .string s => encodeString s.toList
  | .array items => bracketed '[' ']' indent (renderItems (indent + 2) items)
  | .object fields => bracketed '\x7b' '\x7d' indent (renderFields (indent + 2) fields)

/-- The texts of the items of an array. -/
def renderItems (indent : Nat) : List Json → List (List Char)
  | [] => []
  | j :: js => renderAt indent j :: renderItems indent js

/-- The texts of the fields of an object. -/
def renderFields (indent : Nat) : List (String × Json) → List (List Char)
  | [] => []
  | (key, j) :: rest =>
    (encodeString key.toList ++ ':' :: ' ' :: renderAt indent j) :: renderFields indent rest

end

/-- The text of a value. -/
def render (j : Json) : String := String.ofList (renderAt 0 j)

end VersionGate.Json

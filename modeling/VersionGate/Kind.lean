/-!
# Kinds of data

The kinds that loaded data comes in, and the names they go by in messages.
-/

namespace VersionGate

/-- The kinds of data. -/
inductive Kind where
  | null
  | bool
  | int
  | float
  | text
  | bytes
  | date
  | datetime
  | list
  | map
  | set
  /-- An item of a list of pairs. -/
  | pair
  deriving DecidableEq, Repr

/-- The name of a kind. -/
def Kind.name : Kind → String
  | null => "NoneType"
  | bool => "bool"
  | int => "int"
  | float => "float"
  | text => "str"
  | bytes => "bytes"
  | date => "date"
  | datetime => "datetime"
  | list => "list"
  | map => "dict"
  | set => "set"
  | pair => "tuple"

/-- The full name of a kind, with the family that it belongs to. -/
def Kind.fullName : Kind → String
  | date => "datetime.date"
  | datetime => "datetime.datetime"
  | kind => kind.name

end VersionGate

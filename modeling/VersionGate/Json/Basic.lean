import VersionGate.Data.Datum

/-!
# JSON values

Objects keep the order of their fields. `Json.toDatum` is what a JSON value means as data.
-/

namespace VersionGate

/-- A JSON value. -/
inductive Json where
  | null
  | bool (b : Bool)
  | int (n : Int)
  | float (x : Data.Binary64)
  | string (s : String)
  | array (items : List Json)
  | object (fields : List (String × Json))
  deriving Repr

namespace Json

/-- The kind of a JSON value as data. -/
def kind : Json → Kind
  | null => .null
  | bool _ => .bool
  | int _ => .int
  | float _ => .float
  | string _ => .text
  | array _ => .list
  | object _ => .map

mutual

/-- A JSON value as data. -/
def toDatum : Json → Data.Datum
  | .null => .scalar .null
  | .bool b => .scalar (.bool b)
  | .int n => .scalar (.int n)
  | .float x => .scalar (.float x)
  | .string s => .scalar (.text s)
  | .array items => .list none (itemsToDatum items)
  | .object fields => .map none (fieldsToDatum fields)

/-- JSON values as data. -/
def itemsToDatum : List Json → List Data.Datum
  | [] => []
  | j :: js => j.toDatum :: itemsToDatum js

/-- The fields of an object as data. -/
def fieldsToDatum : List (String × Json) → List (Data.Scalar × Data.Datum)
  | [] => []
  | (key, j) :: rest => (.text key, j.toDatum) :: fieldsToDatum rest

end

/-- Sets a field: under a key that is there already the value is replaced, a new one comes last. -/
def setField (key : String) (j : Json) : List (String × Json) → List (String × Json)
  | [] => [(key, j)]
  | (k, old) :: rest => if k = key then (key, j) :: rest else (k, old) :: setField key j rest

end Json

end VersionGate

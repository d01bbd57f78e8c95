import VersionGate.Config.Node
import VersionGate.Json.Basic

/-!
# Trees as data

A node is a map with a `name`, a text or nothing, a list of `values` and a list of `nodes`, each of
which may be missing; a value is a map with such a `name` and a `value`, of which the text is kept.
Other fields do not matter. Anything that counts as nothing is an empty list. A text, bytes, a map,
a set or pairs in place of a list are gone through by characters, numbers, keys, elements or pairs,
none of which is a map.

Loading goes through a node in the order name, values, children, and stops at the first fault. It
never ends if it comes to a map that it is already inside of.
-/

namespace VersionGate.Config

open Data

/-- Why data is no configuration tree. -/
inductive LoadFault where
  | notNode (kind : Kind)
  | notValue (kind : Kind)
  | nodeName (kind : Kind) (shown : String)
  | valueName (kind : Kind) (shown : String)
  /-- A number or a date stands where a list should. -/
  | notList (kind : Kind)
  /-- An integer that has to be written is too long. -/
  | tooLong (numeral : Decimal.TooLong)
  /-- A node is inside itself, so that loading it never ends. -/
  | endless
  deriving DecidableEq, Repr

/-- The wording of a load fault. -/
def LoadFault.message : LoadFault → String
  | notNode kind => "Expected a mapping for a config node, got " ++ kind.name
  | notValue kind => "Expected a mapping for a config value, got " ++ kind.name
  | nodeName kind shown =>
    "Node name must be a string or null, got " ++ kind.name ++ ": " ++ shown
  | valueName kind shown =>
    "Value name must be a string or null, got " ++ kind.name ++ ": " ++ shown
  | notList kind => "'" ++ kind.fullName ++ "' object is not iterable"
  | tooLong numeral => numeral.message
  | endless => "maximum recursion depth exceeded"

/-- The name in some fields. -/
def nameOf (refuse : Kind → String → LoadFault) (fields : List (Scalar × Datum)) :
    Except LoadFault (Option String) :=
  match Datum.field? "name" fields with
  | none | some (.scalar .null) => .ok none
  | some (.scalar (.text name)) => .ok (some name)
  | some d =>
    match d.shown with
    | .ok shown => .error (refuse d.kind shown)
    | .error e => .error (.tooLong e)

/-- What stands where a list should: nothing, its items, or the fault of its first part. -/
def partsOf (refuse : Kind → LoadFault) : Datum → Except LoadFault (List Datum)
  | .list _ items => .ok items
  | .map _ [] | .set [] | .pairs _ [] => .ok []
  | .map _ ((key, _) :: _) => .error (refuse key.kind)
  | .set (key :: _) => .error (refuse key.kind)
  | .pairs _ (_ :: _) => .error (refuse .pair)
  | .scalar s =>
    if s.isFalsy then .ok []
    else match s with
      | .text _ => .error (refuse .text)
      | .bytes _ => .error (refuse .int)
      | _ => .error (.notList s.kind)

/-- The value that a datum describes. -/
def Value.ofDatum : Datum → Except LoadFault Value
  | .map _ fields => do
    let name ← nameOf .valueName fields
    match Datum.field? "value" fields with
    | none | some (.scalar .null) => .ok ⟨name, ""⟩
    | some d =>
      match d.text with
      | .ok text => .ok ⟨name, text⟩
      | .error e => .error (.tooLong e)
  | d => .error (.notValue d.kind)

/-- The values that some fields describe. -/
def valuesOf (fields : List (Scalar × Datum)) : Except LoadFault (List Value) :=
  match Datum.field? "values" fields with
  | none => .ok []
  | some d => do (← partsOf .notValue d).mapM Value.ofDatum

mutual

/-- The node that a datum describes, inside of the nodes with the labels in `inside`. -/
def Node.ofDatumIn (inside : List Nat) : Datum → Except LoadFault Node
  | .map label fields =>
    if Datum.isInside inside label then .error .endless
    else do
      let name ← nameOf .nodeName fields
      let values ← valuesOf fields
      let nodes ← nodesOf (label.toList ++ inside) fields
      .ok ⟨name, values, nodes⟩
  | d => .error (.notNode d.kind)

/-- The children that some fields describe. -/
def nodesOf (inside : List Nat) : List (Scalar × Datum) → Except LoadFault (List Node)
  | [] => .ok []
  | (key, d) :: rest =>
    if key = .text "nodes" then nodesOfPart inside d else nodesOf inside rest

/-- The nodes that a datum in place of a list describes. -/
def nodesOfPart (inside : List Nat) : Datum → Except LoadFault (List Node)
  | .list _ items => nodesOfItems inside items
  | d => do
    let _ ← partsOf .notNode d
    .ok []

/-- The nodes that the items of a list describe. -/
def nodesOfItems (inside : List Nat) : List Datum → Except LoadFault (List Node)
  | [] => .ok []
  | d :: ds => do
    let node ← Node.ofDatumIn inside d
    let nodes ← nodesOfItems inside ds
    .ok (node :: nodes)

end

/-- The node that a datum describes. -/
def Node.ofDatum (d : Datum) : Except LoadFault Node := Node.ofDatumIn [] d

/-- A missing text is null. -/
def jsonOfName (name : Option String) : Json := (name.map Json.string).getD .null

/-- A value as JSON. -/
def Value.toJson (v : Value) : Json :=
  .object [("name", jsonOfName v.name), ("value", .string v.text)]

mutual

/-- A tree as JSON. -/
def Node.toJson : Node → Json
  | ⟨name, values, nodes⟩ =>
    .object [("name", jsonOfName name), ("values", .array (values.map Value.toJson)),
      ("nodes", .array (nodesToJson nodes))]

/-- Trees as JSON. -/
def nodesToJson : List Node → List Json
  | [] => []
  | n :: ns => n.toJson :: nodesToJson ns

end

end VersionGate.Config

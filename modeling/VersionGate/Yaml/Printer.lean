import VersionGate.Config.Node
import VersionGate.Yaml.Scalar

/-!
# Writing configuration trees

A node is a map of its name, its values and its children, one field a line; the items of a list
start with a dash under the key of the list, and an empty list is a pair of brackets. A missing name
is written `null`.
-/

namespace VersionGate.Yaml

open Config

/-- A field with a text, in a line that starts with `indent` blanks. -/
def renderText (indent : Nat) (key : String) (s : String) : List Char :=
  let before := key.toList ++ [':', ' ']
  before ++ Scalar.write (indent + 2) (indent + before.length) s.toList

/-- A field with a text that may be missing. -/
def renderName (indent : Nat) : Option String → List Char
  | none => "name: null".toList
  | some name => renderText indent "name" name

/-- A field with a list of items, each of them written on its own. -/
def renderList (indent : Nat) (key : String) (items : List (List Char)) : List Char :=
  key.toList ++ ':' :: (if items.isEmpty then [' ', '[', ']'] else
    items.flatMap fun item => Scalar.newLine indent ++ '-' :: ' ' :: item)

/-- A value, in a line that starts with `indent` blanks. -/
def renderValue (indent : Nat) (v : Value) : List Char :=
  renderName indent v.name ++ Scalar.newLine indent ++ renderText indent "value" v.text

mutual

/-- A node, in a line that starts with `indent` blanks. -/
def renderNode (indent : Nat) : Node → List Char
  | ⟨name, values, nodes⟩ =>
    renderName indent name ++ Scalar.newLine indent
      ++ renderList indent "values" (values.map (renderValue (indent + 2)))
      ++ Scalar.newLine indent ++ renderList indent "nodes" (renderNodes (indent + 2) nodes)

/-- Nodes, each in a line that starts with `indent` blanks. -/
def renderNodes (indent : Nat) : List Node → List (List Char)
  | [] => []
  | n :: ns => renderNode indent n :: renderNodes indent ns

end

/-- The document of a tree. -/
def render (n : Node) : String := String.ofList (renderNode 0 n ++ ['\n'])

end VersionGate.Yaml

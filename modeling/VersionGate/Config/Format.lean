import VersionGate.Config.Loading
import VersionGate.Json.Parser
import VersionGate.Json.Printer
import VersionGate.Yaml.Document
import VersionGate.Yaml.Printer

/-!
# File formats

A configuration tree is kept in a text file, as YAML or as JSON. Either is read as data first, in
which a tree is then looked for.
-/

namespace VersionGate.Config

/-- The formats of files. -/
inductive Format where
  | yaml
  | json
  deriving DecidableEq, Repr

/-- Why a text holds no configuration tree. -/
inductive TextFault where
  /-- The text is no YAML. -/
  | yaml (fault : Yaml.Fault)
  /-- The text is no JSON. -/
  | json (fault : Json.ReadFault)
  /-- The data in the text is no tree. -/
  | load (fault : LoadFault)
  deriving DecidableEq, Repr

namespace Format

/-- All formats. -/
def all : List Format := [yaml, json]

/-- The word for a format. -/
def word : Format → String
  | yaml => "yaml"
  | json => "json"

/-- The format with the given word. -/
def ofWord? (s : String) : Option Format := all.find? (·.word == s)

/-- The data in a text. -/
def readData (text : String) : Format → Except TextFault Data.Datum
  | yaml => (Yaml.Document.read text).mapError .yaml
  | json => ((Json.read text).map Json.toDatum).mapError .json

/-- The tree in a text. -/
def read (format : Format) (text : String) : Except TextFault Node := do
  (Node.ofDatum (← format.readData text)).mapError .load

/-- The text of a tree. -/
def render (tree : Node) : Format → String
  | yaml => Yaml.render tree
  | json => Json.render tree.toJson

end Format

end VersionGate.Config

import VersionGate.Report

/-!
# Patches

A patch is taken from the root of a configuration tree: what to do, to which kind of node, and two
requirements that decide whether it applies at all, one on the running version and one on the
installed mods. The version requirement comes first and the other only matters when it holds. A
requirement that does not hold is reported, and so is one that is malformed.
-/

namespace VersionGate

/-- What a patch does, known by the symbol in front of a node's name. -/
inductive Operation where
  | insert
  | edit
  | copy
  | delete
  | replace
  | rename
  | paste
  | special
  | create
  deriving DecidableEq, Repr

namespace Operation

/-- All operations. -/
def all : List Operation :=
  [insert, edit, copy, delete, replace, rename, paste, special, create]

/-- The symbol of an operation. -/
def symbol : Operation → String
  | insert => ""
  | edit => "@"
  | copy => "+"
  | delete => "-"
  | replace => "%"
  | rename => "|"
  | paste => "#"
  | special => "*"
  | create => "&"

/-- The operation with the given symbol. -/
def ofSymbol? (s : String) : Option Operation := all.find? (·.symbol == s)

end Operation

/-- The two families of symbols. -/
inductive SymbolFamily where
  | comparator
  | operation
  deriving DecidableEq, Repr

/-- A text that is no symbol of its family. -/
structure UnknownSymbol where
  family : SymbolFamily
  text : String
  deriving DecidableEq, Repr

/-- The wording of an unknown symbol. -/
def UnknownSymbol.message (e : UnknownSymbol) : String :=
  Text.quoted e.text ++ match e.family with
    | .comparator => " is not a valid Comparator"
    | .operation => " is not a valid Command"

/-- Reads a comparator on its own. -/
def Comparator.read (s : String) : Except UnknownSymbol Comparator :=
  match ofSymbol? s with
  | some c => .ok c
  | none => .error ⟨.comparator, s⟩

/-- Reads an operation on its own. -/
def Operation.read (s : String) : Except UnknownSymbol Operation :=
  match ofSymbol? s with
  | some c => .ok c
  | none => .error ⟨.operation, s⟩

/-- A patch: where it comes from, what it does, and what it requires. -/
structure Patch where
  source : String
  operation : Operation
  nodeType : String
  version : Option String := none
  needs : Option String := none
  deriving DecidableEq, Repr

namespace Patch

/-- How checking a patch ends, and what it reports. -/
structure Outcome where
  applies : Except Requirement.CheckFault Bool
  reports : List Report

/-- Checks one requirement of a patch. One that is missing holds; otherwise `unmet` is reported if
it does not hold, and a malformed one with its cause. -/
def checkOne (source : String) (unmet : Report)
    (check : String → Except Requirement.CheckFault Bool) : Option String → Outcome
  | none => ⟨.ok true, []⟩
  | some text =>
    match check text with
    | .ok true => ⟨.ok true, []⟩
    | .ok false => ⟨.ok false, [unmet]⟩
    | .error (.read (.malformed cause)) =>
      ⟨.error (.read (.malformed cause)),
        [.failed ("Malformed root expression in " ++ source) (.read (.malformed cause))]⟩
    | .error fault => ⟨.error fault, []⟩

/-- Checks a patch against the running version and the installed mods. -/
def check (running : Version) (mods : List String) (p : Patch) : Outcome :=
  let onVersion := checkOne p.source (.rootRemoved p.source)
    (fun text => Requirement.check running text) p.version
  match onVersion.applies with
  | .ok true =>
    checkOne p.source (.rootNeedsMods p.source)
      (fun text => Requirement.checkNeeds mods text) p.needs
  | _ => onVersion

end Patch

end VersionGate

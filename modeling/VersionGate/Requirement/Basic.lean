import VersionGate.Kind
import VersionGate.Term

/-!
# Requirements

A requirement says which versions and which sets of installed mods something applies to. Texts only
give requirements two levels deep, all of some groups, each group any of some terms, but the parts
may be put together in any way. A part may also be a piece of data that is no requirement, or
compare the running version with data that is no version; both have a place in the type because they
only matter when an evaluation reaches them.
-/

namespace VersionGate

/-- A condition on the running version and the installed mods. -/
inductive Requirement where
  /-- Holds when all groups hold. -/
  | allOf (groups : List Requirement)
  /-- Holds when one of the terms holds. -/
  | anyOf (terms : List Requirement)
  /-- Holds when the operand does not. -/
  | negation (operand : Requirement)
  /-- Holds when the running version does. -/
  | version (term : Term)
  /-- Compares the running version with data that is no version. -/
  | versus (kind : Kind)
  /-- Holds when the mod is installed. -/
  | mod (name : String)
  /-- Data that is no requirement. -/
  | foreign (kind : Kind)
  deriving Repr

end VersionGate

import VersionGate.Requirement.Basic
import VersionGate.Requirement.Token

/-!
# Reading requirements

The grammar is flat: groups with a comma or an ampersand between them, in each group terms with a
bar between them, and in front of a term perhaps one exclamation mark. An empty piece between bars
is passed over; a group without terms stays, and never holds. There is no white space to skip and
there are no brackets.

What an atom is depends on the use: `versionAtom` reads version terms and `modAtom` names of mods.
-/

namespace VersionGate.Requirement

/-- Reads an atom of a version requirement. -/
def versionAtom (cs : List Char) : Except ReadFault Requirement :=
  (Term.readChars cs).map .version

/-- Whether a character may be part of a mod's name. -/
def isModChar (c : Char) : Bool :=
  c.isAlphanum || c = '_' || c = '.' || c = '-' || c = '/'

/-- Reads an atom of a mod requirement. -/
def modAtom (cs : List Char) : Except ReadFault Requirement :=
  if !cs.isEmpty && cs.all isModChar then .ok (.mod (String.ofList cs))
  else .error (.malformed (.modName (String.ofList cs)))

variable {ε : Type} (atom : List Char → Except ε Requirement)

/-- Reads a term: an atom with perhaps one exclamation mark in front. -/
def readTerm : List Char → Except ε Requirement
  | '!' :: cs => (atom cs).map .negation
  | cs => atom cs

/--
Reads the terms of one group from the front of some tokens and returns what is left. A bar goes on
with the group, whether an atom stands in front of it or not; a separator of groups ends it, and so
does an atom right after an atom.
-/
def readGroup : List Token → Except ε (List Requirement × List Token)
  | [] => .ok ([], [])
  | t :: ts =>
    match t.kind with
    | .and => .ok ([], t :: ts)
    | .or => readGroup ts
    | .atom =>
      match readTerm atom t.chars, ts with
      | .error fault, _ => .error fault
      | .ok term, [] => .ok ([term], [])
      | .ok term, u :: us =>
        if u.kind = .or then (readGroup us).map fun (terms, rest) => (term :: terms, rest)
        else .ok ([term], u :: us)

/-- What is left behind a group is the end of what there was. -/
theorem suffix_of_readGroup {ts : List Token} {group : List Requirement} {rest : List Token}
    (h : readGroup atom ts = .ok (group, rest)) : rest <:+ ts := by
  fun_induction readGroup atom ts generalizing group with
  | case1 | case2 | case5 | case7 =>
    simp only [Except.ok.injEq, Prod.mk.injEq] at h
    simp [← h.2]
  | case3 t ts _ ih => exact (ih h).trans (List.suffix_cons t ts)
  | case4 => exact nomatch h
  | case6 t _ term u us _ _ ih =>
    cases hus : readGroup atom us with
    | error fault => simp [hus, Except.map] at h
    | ok p =>
      simp only [hus, Except.map, Except.ok.injEq, Prod.mk.injEq] at h
      have hp : readGroup atom us = .ok (p.1, rest) := by rw [hus, ← h.2]
      exact (ih hp).trans ((List.suffix_cons u us).trans (List.suffix_cons t (u :: us)))

/-- So it is no longer. -/
theorem length_le_of_readGroup {ts : List Token} {group : List Requirement} {rest : List Token}
    (h : readGroup atom ts = .ok (group, rest)) : rest.length ≤ ts.length :=
  (suffix_of_readGroup atom h).length_le

/-- Reads groups of terms from the front of some tokens, as far as they go, and returns what is
left. After a group, only a separator of groups goes on with another. -/
def readGroups (ts : List Token) : Except ε (List (List Requirement) × List Token) :=
  match _h : readGroup atom ts with
  | .error fault => .error fault
  | .ok (group, []) => .ok ([group], [])
  | .ok (group, t :: rest) =>
    if t.kind = .and then
      (readGroups rest).map fun (groups, rest) => (group :: groups, rest)
    else .ok ([group], t :: rest)
termination_by ts.length
decreasing_by exact length_le_of_readGroup atom _h

/-- The requirement that all groups hold, a group holding when one of its terms does. -/
def ofGroups (groups : List (List Requirement)) : Requirement :=
  .allOf (groups.map .anyOf)

/-- Reads a requirement with the given atoms from a text, which may be missing. -/
def readWith (atom : List Char → Except ReadFault Requirement) :
    Option String → Except ReadFault Requirement
  | none => .error (.malformed .noRequirement)
  | some text =>
    if text = "" then .error (.malformed .emptyRequirement)
    else do
      let (groups, rest) ← readGroups atom (Token.scan text.toList)
      match rest with
      | [] => .ok (ofGroups groups)
      | t :: _ => .error (.malformed (.unexpectedToken t.text t.position text))

/-- Reads a requirement on the running version. -/
def read (text : Option String) : Except ReadFault Requirement := readWith versionAtom text

/-- Reads a requirement on the installed mods. -/
def readNeeds (text : Option String) : Except ReadFault Requirement := readWith modAtom text

end VersionGate.Requirement

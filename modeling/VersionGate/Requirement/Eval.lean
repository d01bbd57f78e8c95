import VersionGate.Requirement.Parser
import VersionGate.Text.LowerCase

/-!
# Evaluating requirements

A requirement is evaluated against the facts of a run: the running version and the installed mods,
either of which may be unknown. Groups and terms are taken from left to right and only until the
answer is known, so a fault behind a deciding term is not seen. Names of mods agree when their
lower-case forms do.
-/

namespace VersionGate.Requirement

/-- What is known about a run. -/
structure Facts where
  running : Option Version := none
  mods : Option (List String) := none

/-- Why a requirement has no answer. -/
inductive EvalFault where
  /-- A term asks for the running version, which is unknown. -/
  | noVersion
  /-- A term asks for the installed mods, which are unknown. -/
  | noMods
  /-- What a version is compared with is no version. -/
  | incomparable (kind : Kind)
  /-- A part is no requirement. -/
  | foreign (kind : Kind)
  deriving DecidableEq, Repr

/-- The wording of a failed evaluation. -/
def EvalFault.message : EvalFault → String
  | noVersion => "A game version is required to evaluate version terms"
  | noMods => "A set of installed mods is required to evaluate mod references"
  | incomparable kind => "Cannot compare GameVersion with " ++ kind.name
  | foreign kind => "Unsupported Expression type: <class '" ++ kind.name ++ "'>"

/-- Whether one of the installed mods has the given name. -/
def Facts.installed (mods : List String) (name : String) : Bool :=
  (mods.map Text.lower).contains (Text.lower name)

mutual

/-- Whether a requirement holds. -/
def eval (facts : Facts) : Requirement → Except EvalFault Bool
  | .allOf groups => evalAll facts groups
  | .anyOf terms => evalAny facts terms
  | .negation operand => (eval facts operand).map (!·)
  | .version term =>
    match facts.running with
    | none => .error .noVersion
    | some running => .ok (term.holds running)
  | .versus kind => .error (if facts.running.isNone then .noVersion else .incomparable kind)
  | .mod name =>
    match facts.mods with
    | none => .error .noMods
    | some mods => .ok (Facts.installed mods name)
  | .foreign kind => .error (.foreign kind)

/-- Whether all requirements hold, up to the first that does not. -/
def evalAll (facts : Facts) : List Requirement → Except EvalFault Bool
  | [] => .ok true
  | r :: rs =>
    match eval facts r with
    | .error e => .error e
    | .ok false => .ok false
    | .ok true => evalAll facts rs

/-- Whether one of the requirements holds, up to the first that does. -/
def evalAny (facts : Facts) : List Requirement → Except EvalFault Bool
  | [] => .ok false
  | r :: rs =>
    match eval facts r with
    | .error e => .error e
    | .ok true => .ok true
    | .ok false => evalAny facts rs

end

/-- Why checking a text against the facts fails. -/
inductive CheckFault where
  | read (fault : ReadFault)
  | eval (fault : EvalFault)
  deriving DecidableEq, Repr

/-- The wording of a failed check. -/
def CheckFault.message : CheckFault → String
  | read fault => fault.message
  | eval fault => fault.message

/-- Evaluates what has been read. -/
def evalRead (facts : Facts) (requirement : Except ReadFault Requirement) :
    Except CheckFault Bool :=
  match requirement with
  | .error e => .error (.read e)
  | .ok r => (eval facts r).mapError .eval

/-- Whether a version requirement holds for the running version. The whole text is read first. -/
def check (running : Option Version) (text : Option String) : Except CheckFault Bool :=
  evalRead ⟨running, none⟩ (read text)

/-- Whether a requirement on mods holds for the installed ones. The whole text is read first. -/
def checkNeeds (mods : Option (List String)) (text : Option String) : Except CheckFault Bool :=
  evalRead ⟨none, mods⟩ (readNeeds text)

/-- Whether a single version term holds for the running version. -/
def checkTerm (running : Option Version) (text : Option String) : Except CheckFault Bool :=
  evalRead ⟨running, none⟩ ((Term.read text).map .version)

end VersionGate.Requirement

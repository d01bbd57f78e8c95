import VersionGate.Requirement.Eval

/-!
# Annotated names

The name of an entry may hold one annotation, `:KSP_VERSION[…]`, anywhere in it. The marker in front
is found without regard to case, and only the first one counts. The requirement runs from the marker
to the next closing bracket; taking the annotation out joins what stands on its two sides. A marker
with no closing bracket behind it is a fault.
-/

namespace VersionGate

/-- The marker that opens an annotation. -/
def marker : String := ":KSP_VERSION["

/-- Why the name of an entry cannot be decided. -/
inductive NameFault where
  /-- A marker has no closing bracket. -/
  | unclosed (name : String)
  /-- The requirement in the brackets is malformed. -/
  | malformed (name : String) (cause : Malformed)
  /-- A numeral in the brackets is too long. -/
  | tooLong (numeral : Decimal.TooLong)
  /-- The requirement cannot be evaluated, which does not happen to one that was read. -/
  | undecided (fault : Requirement.EvalFault)
  deriving DecidableEq, Repr

/-- The wording of a name that cannot be decided. -/
def NameFault.message : NameFault → String
  | unclosed name =>
    "Missing ']' after " ++ Text.quoted marker ++ " in name " ++ Text.quoted name
  | malformed name cause =>
    "Invalid KSP_VERSION expression in " ++ Text.quoted name ++ ": " ++ cause.message
  | tooLong numeral => numeral.message
  | undecided fault => fault.message

/-- A name without its annotation, and the requirement if there was one. -/
structure AnnotatedName where
  name : Option String
  requirement : Option String
  deriving DecidableEq, Repr

namespace AnnotatedName

/-- Whether a name was annotated. An empty requirement is one. -/
def hasAnnotation (a : AnnotatedName) : Bool := a.requirement.isSome

/-- Whether `c` stands for the character `m` of the marker: the same letter in either case, a long
s, a Kelvin sign, or an i with a dot too many or too few. -/
def matchesMarker (m c : Char) : Bool :=
  c == m || c == m.toLower
    || (m == 'S' && c == 'ſ') || (m == 'K' && c == '\u212a')
    || (m == 'I' && (c == 'İ' || c == 'ı'))

/-- What follows a marker at the very front of a text. -/
def afterMarker? : List Char → List Char → Option (List Char)
  | [], cs => some cs
  | m :: ms, c :: cs => if matchesMarker m c then afterMarker? ms cs else none
  | _ :: _, [] => none

/-- What stands before and after the first marker of a text. -/
def cutAtMarker : List Char → Option (List Char × List Char)
  | [] => none
  | c :: cs =>
    match afterMarker? marker.toList (c :: cs) with
    | some after => some ([], after)
    | none => (cutAtMarker cs).map fun (before, after) => (c :: before, after)

/-- Takes the annotation out of a text. -/
def splitChars (cs : List Char) : Except NameFault AnnotatedName :=
  match cutAtMarker cs with
  | none => .ok ⟨some (String.ofList cs), none⟩
  | some (before, after) =>
    match Text.cutAt ']' after with
    | none => .error (.unclosed (String.ofList cs))
    | some (requirement, rest) =>
      .ok ⟨some (String.ofList (before ++ rest)), some (String.ofList requirement)⟩

/-- Takes the annotation out of a name. No name has none. -/
def split : Option String → Except NameFault AnnotatedName
  | none => .ok ⟨none, none⟩
  | some name => splitChars name.toList

end AnnotatedName

/-- What the running version says about an entry with some name. -/
inductive Verdict where
  /-- The entry stays, under this name. -/
  | keep (name : Option String)
  /-- The entry goes. -/
  | remove
  /-- The name cannot be decided. -/
  | fail (fault : NameFault)
  deriving DecidableEq, Repr

/-- Judges a name: without an annotation it stays as it is. -/
def Verdict.ofName (running : Version) (name : Option String) : Verdict :=
  match AnnotatedName.split name with
  | .error fault => .fail fault
  | .ok ⟨_, none⟩ => .keep name
  | .ok ⟨stripped, some requirement⟩ =>
    match Requirement.check running requirement with
    | .ok true => .keep stripped
    | .ok false => .remove
    | .error (.read (.malformed cause)) => .fail (.malformed (name.getD "") cause)
    | .error (.read (.tooLong numeral)) => .fail (.tooLong numeral)
    | .error (.eval fault) => .fail (.undecided fault)

end VersionGate

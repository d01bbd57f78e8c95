/-!
# Text for a terminal

What a message loses on its way to standard error: the control sequences of terminals, and the
carriage returns of line breaks. A control sequence is an escape character and a bracket, then
parameters, then intermediate characters, then one final character. An escape character with
anything else behind it stays, and so does what follows it.
-/

namespace VersionGate.Text

/-- Whether a character is a parameter of a control sequence: a digit or one of `:;<=>?`. -/
def isParameter (c : Char) : Bool := '0' ≤ c && c ≤ '?'

/-- Whether a character can stand between the parameters of a control sequence and its end: the
space or one of the signs before the digits. -/
def isIntermediate (c : Char) : Bool := ' ' ≤ c && c ≤ '/'

/-- Whether a character ends a control sequence: a letter or one of the signs around the letters. -/
def isFinal (c : Char) : Bool := '@' ≤ c && c ≤ '~'

/-- The text behind the control sequence whose escape character and bracket stand in front of the
given text, if there is one. -/
def behindControl? (cs : List Char) : Option (List Char) :=
  match (cs.dropWhile isParameter).dropWhile isIntermediate with
  | c :: rest => if isFinal c then some rest else none
  | [] => none

/-- A control sequence has something in it. -/
theorem length_of_behindControl? {cs rest : List Char} (h : behindControl? cs = some rest) :
    rest.length < cs.length := by
  have shorter := ((List.dropWhile_sublist isIntermediate).trans
    (List.dropWhile_sublist (l := cs) isParameter)).length_le
  unfold behindControl? at h
  split at h
  · next c tail eq =>
    split at h
    · obtain rfl := Option.some.inj h
      rw [eq, List.length_cons] at shorter
      exact shorter
    · cases h
  · cases h

/-- Takes the control sequences out of a text. -/
def dropControls : List Char → List Char
  | '\x1b' :: '[' :: cs =>
    match _ : behindControl? cs with
    | some rest => dropControls rest
    | none => '\x1b' :: dropControls ('[' :: cs)
  | c :: cs => c :: dropControls cs
  | [] => []
termination_by cs => cs.length
decreasing_by
  · have := length_of_behindControl? ‹_›
    simp only [List.length_cons]
    omega
  all_goals simp only [List.length_cons]
  all_goals omega

/-- Writes the line breaks of two characters as line feeds. -/
def joinBreaks : List Char → List Char
  | '\r' :: '\n' :: cs => '\n' :: joinBreaks cs
  | c :: cs => c :: joinBreaks cs
  | [] => []

/-- What a message is on standard error. -/
def forTerminal (s : String) : String := String.ofList (joinBreaks (dropControls s.toList))

end VersionGate.Text

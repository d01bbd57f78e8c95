import VersionGate.CommandLine.Words

/-!
# Checking an expression

The command `check` evaluates one expression, which is a version requirement or, on demand, one on
mods. It writes whether the expression holds, and its exit code says so too.

The options that are given are looked at before the argument, and those that are not after it. The
running version may come from the surroundings if no option gives one.
-/

namespace VersionGate.CommandLine

/-- How a run of the program ends: what it writes, the text of its help if that is all there is, its
log, and its exit code or fault. -/
structure Outcome where
  output : String := ""
  help : String := ""
  log : List LogLine := []
  result : Except RunFault Nat

namespace Outcome

/-- The outcome of a run that fails. -/
def fail (fault : RunFault) : Outcome := { result := .error fault }

/-- The exit code of a run. -/
def exitCode (o : Outcome) : Nat :=
  match o.result with
  | .ok code => code
  | .error fault => fault.exitCode

end Outcome

/-- The option that asks for help, known to every command. -/
def helpOption : OptionRule := { long := "--help" }

/-- The option for the running version. -/
def versionOption : OptionRule := ⟨"--game-version", some 'g', true⟩

/-- The option that makes an expression one on mods. -/
def needsOption : OptionRule := { long := "--needs" }

/-- The option that names an installed mod. -/
def modOption : OptionRule := ⟨"--mod", some 'm', true⟩

/-- The text for the running version: the one on the command line, else the one from the
surroundings, which does not count if it is empty. -/
def versionText? (surrounding : Option String) (w : Words) : Option String :=
  match w.value? versionOption with
  | some text => some text
  | none => surrounding.filter (· != "")

/-- Reads the running version from a text. -/
def readRunning (text : String) : Except RunFault Version :=
  (Version.read true (some text)).mapError fun
    | .malformed cause => .usage (.value versionOption.names (.malformed cause))
    | .tooLong numeral => .check (.read (.tooLong numeral))

/-- Reads the running version, if there is a text for it. -/
def running? (surrounding : Option String) (w : Words) : Except RunFault (Option Version) :=
  match versionText? surrounding w with
  | none => .ok none
  | some text => (readRunning text).map some

/-- The single argument of a command. -/
def argument (name : String) (w : Words) : Except RunFault String :=
  match w.arguments with
  | [] => .error (.usage (.noArgument name))
  | first :: _ => .ok first

/-- Refuses arguments behind the first. -/
def onlyOneArgument (w : Words) : Except RunFault Unit :=
  match w.arguments with
  | _ :: extra :: more => .error (.usage (.extraArguments (extra :: more)))
  | _ => .ok ()

namespace Check

/-- The options of the command. -/
def options : List OptionRule := [versionOption, needsOption, modOption, helpOption]

/-- What is asked for: the expression, and the running version if there is one. -/
def settle (surrounding : Option String) (w : Words) :
    Except RunFault (String × Option Version) := do
  if w.has versionOption then
    let _ ← running? surrounding w
  let expression ← argument "EXPRESSION" w
  let running ← running? surrounding w
  onlyOneArgument w
  if !w.has needsOption && running.isNone then
    .error (.usage (.noOption [versionOption.long]))
  else .ok (expression, running)

/-- Whether the expression holds. -/
def holds (surrounding : Option String) (w : Words) : Except RunFault Bool := do
  let (expression, running) ← settle surrounding w
  let answer :=
    if w.has needsOption then Requirement.checkNeeds (some (w.valuesOf modOption)) (some expression)
    else Requirement.check running (some expression)
  answer.mapError fun
    | .read (.malformed cause) => .usage (.expression cause)
    | fault => .check fault

/-- Runs the command. -/
def run (surrounding : Option String) (w : Words) : Outcome :=
  match holds surrounding w with
  | .error fault => .fail fault
  | .ok true => { output := "true\n", result := .ok 0 }
  | .ok false => { output := "false\n", result := .ok 1 }

end Check

end VersionGate.CommandLine

import VersionGate.CommandLine.Check
import VersionGate.CommandLine.Files
import VersionGate.Pruning
import VersionGate.Text.LineBreak

/-!
# Pruning a file

The command `prune` reads the tree in a file, prunes it for the running version and writes it, to
another file or as its output. The tree is written as a whole and only if the pass over it went
through; otherwise nothing is.
-/

namespace VersionGate.CommandLine

/-- The option for the format that is written. -/
def formatOption : OptionRule := ⟨"--format", some 'f', true⟩

/-- The option for the file that is written. -/
def outputOption : OptionRule := ⟨"--output", some 'o', true⟩

/-- The option for a log with all details. -/
def verboseOption : OptionRule := { long := "--verbose", short := some 'v' }

namespace Prune

/-- The options of the command. -/
def options : List OptionRule :=
  [versionOption, formatOption, outputOption, verboseOption, helpOption]

/-- What is asked for. -/
structure Job where
  file : String
  running : Version
  /-- The format to write, that of the file if there is none. -/
  format : Option Config.Format := none
  /-- The file to write, none for the output of the program. -/
  target : Option String := none
  verbose : Bool := false
  deriving DecidableEq, Repr

/-- The running version, which there has to be. -/
def running (surrounding : Option String) (w : Words) : Except RunFault Version :=
  match versionText? surrounding w with
  | none => .error (.usage (.noOption versionOption.names))
  | some text => readRunning text

/-- The format that is asked for. -/
def format? (w : Words) : Except RunFault (Option Config.Format) :=
  match w.value? formatOption with
  | none => .ok none
  | some word =>
    match Config.Format.ofWord? word with
    | some format => .ok (some format)
    | none =>
      .error (.usage (.value formatOption.names
        (.noChoice word (Config.Format.all.map Config.Format.word))))

/-- The file to write, which must not be a directory. An empty path is none. -/
def target? (status : FileStatus) (w : Words) : Except RunFault (Option String) :=
  match w.value? outputOption with
  | none => .ok none
  | some path =>
    match status with
    | .unnamed => .error .nullInPath
    | .directory => .error (.usage (.value outputOption.names (.directory path)))
    | .nothing | .file => .ok (if path = "" then none else some path)

/-- The file to read, which has to be there and must not be a directory. -/
def file (status : FileStatus) (w : Words) : Except RunFault String := do
  let path ← argument "FILE" w
  match status with
  | .unnamed => .error .nullInPath
  | .nothing => .error (.usage (.value ["FILE"] (.noFile path)))
  | .directory => .error (.usage (.value ["FILE"] (.directory path)))
  | .file => .ok path

/-- Settles what is asked for, given what stands at the file to read and at the one to write. The
options that are given are looked at in their order. -/
def settle (surrounding : Option String) (source target : FileStatus) (w : Words) :
    Except RunFault Job := do
  w.options.forM fun (option, _) =>
    if option = versionOption then do let _ ← running surrounding w
    else if option = formatOption then do let _ ← format? w
    else if option = outputOption then do let _ ← target? target w
    else .ok ()
  let file ← file source w
  let running ← running surrounding w
  let format ← format? w
  let target ← target? target w
  onlyOneArgument w
  .ok { file, running, format, target, verbose := w.has verboseOption }

/-- What becomes of a tree: the log of the pass, and the text to write with the counts of what was
removed. -/
def render (job : Job) (input : Config.Format) (source : String) (tree : Config.Node) :
    List LogLine × Except RunFault (String × String) :=
  let outcome := Pruning.prune job.running tree
  let opening : LogLine :=
    ⟨.info, .commandLine,
      "Pruning " ++ source ++ " for game version " ++ job.running.text, none⟩
  let log := (opening :: outcome.log source).filter fun line => job.verbose || line.level != .debug
  match outcome.fault with
  | some fault => (log, .error (.name fault))
  | none =>
    (log, .ok ((job.format.getD input).render outcome.result,
      (Counter.recordAll {} (outcome.reports source)).summary))

/-- The last line of the log. -/
def closing (summary : String) : LogLine := ⟨.info, .commandLine, summary, none⟩

variable {m : Type → Type} [Monad m]

/-- The outcome of a job once a text is written. -/
def close (log : List LogLine) (output summary : String) : Outcome :=
  { output, log := log ++ [closing summary], result := .ok 0 }

/-- Writes what a job gives. A text with half a character in it leaves no output and an empty
file. -/
def deliver (files : FileSystem m) (target : Option String) (log : List LogLine)
    (text summary : String) : m Outcome := do
  let whole := (Text.whole? text).isSome
  let failure (fault : RunFault) : Outcome := { log, result := .error fault }
  match target with
  | none => return if whole then close log (text ++ "\n") summary else failure .halfCharacter
  | some path =>
    match ← files.write (Path.normalize path) (if whole then text else "") with
    | .error fault => return failure (.file fault)
    | .ok () => return if whole then close log "" summary else failure .halfCharacter

/-- Does a job. -/
def Job.run (files : FileSystem m) (job : Job) : m Outcome := do
  let source := Path.normalize job.file
  match ← files.read source with
  | .error fault => return .fail (.file fault)
  | .ok contents =>
    let input := Path.format source
    match input.read (String.ofList (Text.unifyBreaks contents.toList)) with
    | .error fault => return .fail (.text source fault)
    | .ok tree =>
      match render job input source tree with
      | (log, .error fault) => return { log, result := .error fault }
      | (log, .ok (text, summary)) => deliver files job.target log text summary

/-- What stands at a path, nothing if there is no path. -/
def statusOf (files : FileSystem m) : Option String → m FileStatus
  | none => return .nothing
  | some path => files.status path

/-- Runs the command. -/
def run (files : FileSystem m) (surrounding : Option String) (w : Words) : m Outcome := do
  let source ← statusOf files w.arguments.head?
  let target ← statusOf files (w.value? outputOption)
  match settle surrounding source target w with
  | .error fault => return .fail fault
  | .ok job => job.run files

end Prune

end VersionGate.CommandLine

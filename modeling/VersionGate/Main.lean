import VersionGate.CommandLine.Program
import VersionGate.Text.Quoted

/-!
# The entry point

Runs the program on the files of the computer, with the log and everything that is wrong on standard
error. Texts are spelled on their way in and shown on their way out.
-/

namespace VersionGate.CommandLine

/-- What a failure of the computer means for a file. -/
def FileFault.ofError : IO.Error → FileFault
  | .noFileOrDirectory .. => .noFile
  | error => .other error.toString

/-- The files of the computer. -/
def computerFiles : FileSystem IO where
  status path := do
    if path.isEmpty then return .nothing
    if path.toList.contains '\x00' then return .unnamed
    try
      let place ← IO.FS.realPath (Text.shown path)
      if ← place.isDir then return .directory
      else if ← place.pathExists then return .file
      else return .nothing
    catch _ => return .nothing
  read path := try return .ok (Text.spelled (← IO.FS.readFile (Text.shown path)))
    catch e => return .error (.ofError e)
  write path text := try
      IO.FS.writeFile (Text.shown path) (Text.shown text)
      return .ok ()
    catch e => return .error (.ofError e)

/-- The word for a level in the log. -/
def levelWord : Level → String
  | .debug => "DEBUG"
  | .info => "INFO"
  | .warning => "WARNING"
  | .error => "ERROR"

/-- Writes what comes of a run, and gives its exit code. -/
def Outcome.print (o : Outcome) : IO UInt32 := do
  for line in o.log do
    IO.eprintln (Text.shown ("[" ++ levelWord line.level ++ "] " ++ line.message))
  IO.eprint o.help
  if let .error fault := o.result then
    IO.eprint (Text.shown (fault.complaint?.getD ("Error: " ++ fault.details ++ "\n")))
  IO.print (Text.shown o.output)
  return UInt32.ofNat o.exitCode

end VersionGate.CommandLine

open VersionGate VersionGate.CommandLine in
/-- Runs the program. -/
def main (words : List String) : IO UInt32 := do
  let surrounding := (← IO.getEnv versionVariable).map Text.spelled
  let outcome ← run computerFiles surrounding (words.map Text.spelled)
  outcome.print

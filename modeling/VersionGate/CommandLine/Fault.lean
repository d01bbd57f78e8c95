import VersionGate.Config.Format
import VersionGate.Report
import VersionGate.Text.Terminal

/-!
# What can go wrong on the command line

A command line that makes no sense is refused with an explanation, and so is an expression that is
malformed. So are files that hold no tree and trees with a malformed name, once they have been read.
Everything else that can go wrong is not explained.
-/

namespace VersionGate.CommandLine

/-- What is wrong with a value on the command line. -/
inductive ValueFault where
  | malformed (cause : Malformed)
  | noFile (path : String)
  | directory (path : String)
  | noChoice (word : String) (choices : List String)
  deriving DecidableEq, Repr

/-- Words between quotes. -/
def quotedAll (separator : String) (words : List String) : String :=
  separator.intercalate (words.map Text.quoted)

/-- The wording of a faulty value. -/
def ValueFault.message : ValueFault → String
  | malformed cause => cause.message
  | noFile path => "File " ++ Text.quoted path ++ " does not exist."
  | directory path => "File " ++ Text.quoted path ++ " is a directory."
  | noChoice word choices => Text.quoted word ++ " is not one of " ++ quotedAll ", " choices ++ "."

/-- Why a command line makes no sense. -/
inductive UsageFault where
  | noCommand
  | unknownCommand (name : String) (similar : List String)
  | unknownOption (name : String) (similar : List String)
  /-- An option is last and has no value. -/
  | noValue (name : String)
  /-- An option that takes no value has one. -/
  | unwantedValue (name : String)
  | noArgument (name : String)
  /-- An option that has to be there is not; it goes by several names. -/
  | noOption (names : List String)
  /-- There are more arguments than the command takes. -/
  | extraArguments (arguments : List String)
  /-- The value of an argument or of an option is wrong. -/
  | value (names : List String) (fault : ValueFault)
  /-- The expression to check is malformed. -/
  | expression (cause : Malformed)
  deriving DecidableEq, Repr

/-- A hint at similar names. -/
def hint : List String → String
  | [] => ""
  | [name] => " Did you mean " ++ Text.quoted name ++ "?"
  | names => " (Did you mean one of: " ++ quotedAll ", " names ++ "?)"

/-- The wording of a usage fault. -/
def UsageFault.message : UsageFault → String
  | noCommand => "Missing command."
  | unknownCommand name similar => "No such command " ++ Text.quoted name ++ "." ++ hint similar
  | unknownOption name similar => "No such option " ++ Text.quoted name ++ "." ++ hint similar
  | noValue name => "Option " ++ Text.quoted name ++ " requires an argument."
  | unwantedValue name => "Option " ++ Text.quoted name ++ " does not take a value."
  | noArgument name => "Missing argument " ++ Text.quoted name ++ "."
  | noOption names => "Missing option " ++ quotedAll " / " names ++ "."
  | extraArguments arguments =>
    "Got unexpected extra argument" ++ (if arguments.length = 1 then "" else "s") ++ " ("
      ++ " ".intercalate arguments ++ ")"
  | value names fault => "Invalid value for " ++ quotedAll " / " names ++ ": " ++ fault.message
  | expression cause => "Invalid value for EXPRESSION: " ++ cause.message

/-- Why a file cannot be read or written. -/
inductive FileFault where
  | noFile
  /-- Something that is no directory stands where one should. -/
  | noDirectory
  | directory
  /-- A name on the way to the file, or the path as a whole, is too long. -/
  | tooLong
  | other (reason : String)
  deriving DecidableEq, Repr

/-- The wording of a file fault. -/
def FileFault.message : FileFault → String
  | noFile => "no such file or directory"
  | noDirectory => "not a directory"
  | directory => "is a directory"
  | tooLong => "file name too long"
  | other reason => reason

/-- Why a run of the program fails. -/
inductive RunFault where
  | usage (fault : UsageFault)
  /-- A path has a null character in it. -/
  | nullInPath
  /-- A check has no answer. -/
  | check (fault : Requirement.CheckFault)
  /-- The file at `path` holds no tree. -/
  | text (path : String) (fault : Config.TextFault)
  /-- A name in the tree cannot be decided. -/
  | name (fault : NameFault)
  /-- The text to write has half a character in it, which no bytes stand for. -/
  | halfCharacter
  | file (fault : FileFault)
  deriving DecidableEq, Repr

namespace RunFault

/-- What the user is told about a fault that is explained. -/
def explanation? : RunFault → Option String
  | usage fault => some fault.message
  | nullInPath | check _ => none
  | text path (.load fault) =>
    match fault with
    | .notList _ | .tooLong _ | .endless => none
    | fault => some (path ++ ": " ++ fault.message)
  | text .. => none
  | name fault =>
    match fault with
    | .unclosed _ | .malformed .. => some fault.message
    | .tooLong _ | .undecided _ => none
  | halfCharacter | file _ => none

/-- What there is to say about a fault that is not explained. -/
def details : RunFault → String
  | usage fault => fault.message
  | nullInPath => "embedded null byte"
  | check fault => fault.message
  | text path fault => path ++ ": " ++ match fault with
    | .yaml .form => "malformed YAML"
    | .yaml fault => fault.message
    | .json .form => "malformed JSON"
    | .json (.tooLong numeral) => numeral.message
    | .load fault => fault.message
  | name fault => fault.message
  | halfCharacter => "half a character cannot be written"
  | file fault => fault.message

/-- What standard error says about a fault that is explained. -/
def complaint? (fault : RunFault) : Option String :=
  fault.explanation?.map fun text => Text.forTerminal ("Error: " ++ text ++ "\n")

/-- The exit code of a run that fails. -/
def exitCode : RunFault → Nat
  | usage _ => 2
  | _ => 1

end RunFault

end VersionGate.CommandLine

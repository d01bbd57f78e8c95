import VersionGate.CommandLine.Prune

/-!
# The program

The first argument of the program names a command, and everything behind it belongs to the command.
In front of it the program can be asked for its version or for help.
-/

namespace VersionGate.CommandLine

/-- The commands. -/
inductive Command where
  | check
  | prune
  deriving DecidableEq, Repr

namespace Command

/-- All commands. -/
def all : List Command := [check, prune]

/-- The name of a command. -/
def name : Command → String
  | check => "check"
  | prune => "prune"

/-- The command with the given name. -/
def ofName? (s : String) : Option Command := all.find? (·.name == s)

/-- The options that a command knows. -/
def options : Command → List OptionRule
  | check => Check.options
  | prune => Prune.options

/-- The help for a command. -/
def help : Command → String
  | check =>
    "Usage: main check [OPTIONS] EXPRESSION\n\n"
      ++ "Options:\n"
      ++ "  -g, --game-version TEXT  Running version\n"
      ++ "  --needs                  Check for mods and not for the version\n"
      ++ "  -m, --mod TEXT           Installed mod, may be repeated\n"
      ++ "  --help                   Show this message and exit.\n"
  | prune =>
    "Usage: main prune [OPTIONS] FILE\n\n"
      ++ "Options:\n"
      ++ "  -g, --game-version TEXT   Running version  [required]\n"
      ++ "  -f, --format [yaml|json]  Format to write\n"
      ++ "  -o, --output FILE         File to write\n"
      ++ "  -v, --verbose             Log all details\n"
      ++ "  --help                    Show this message and exit.\n"

end Command

/-- The help for the program. -/
def programHelp : String :=
  "Usage: main [OPTIONS] COMMAND [ARGS]...\n\n"
    ++ "Options:\n"
    ++ "  --version  Show the version and exit.\n"
    ++ "  --help     Show this message and exit.\n\n"
    ++ "Commands:\n"
    ++ "  check  Evaluate an expression; exit 0 if satisfied, 1 if not.\n"
    ++ "  prune  Prune a YAML or JSON config tree.\n"

/-- The option that asks for the version of the program. -/
def programVersionOption : OptionRule := { long := "--version" }

/-- The options of the program itself. -/
def programOptions : List OptionRule := [programVersionOption, helpOption]

/-- The version of the program. -/
def programVersion : String := "main, version 0.1.0\n"

/-- The variable in the surroundings that holds the running version. -/
def versionVariable : String := "KSPVER_GAME_VERSION"

/-- The outcome of a run that was asked for something of which there is only the text. -/
def tell? (w : Words) : Option Outcome :=
  match w.options with
  | [] => none
  | (option, _) :: _ =>
    if option = programVersionOption then some { output := programVersion, result := .ok 0 }
    else some { output := programHelp, result := .ok 0 }

variable {m : Type → Type} [Monad m]

/-- Runs a command with the words behind its name. -/
def Command.run (files : FileSystem m) (surrounding : Option String) (command : Command)
    (words : List String) : m Outcome := do
  match readWords command.options true words with
  | .error fault => return .fail (.usage fault)
  | .ok w =>
    if w.has helpOption then return { output := command.help, result := .ok 0 }
    else match command with
      | .check => return Check.run surrounding w
      | .prune => Prune.run files surrounding w

/-- The outcome of a run with a command that is not known. A name that is an option in itself counts
as one. -/
def unknownCommand (name : String) (words : List String) : Outcome :=
  match readWords programOptions false (name :: words) with
  | .error fault => .fail (.usage fault)
  | .ok w =>
    (tell? w).getD (.fail (.usage (.unknownCommand name
      (Text.similarTo name (Command.all.map Command.name)))))

/-- Runs the program with the words of its command line. The running version may come from the
surroundings. -/
def run (files : FileSystem m) (surrounding : Option String) (words : List String) :
    m Outcome := do
  if words.isEmpty then return { help := programHelp, result := .ok 2 }
  else match readWords programOptions false words with
    | .error fault => return .fail (.usage fault)
    | .ok w =>
      match tell? w, w.arguments with
      | some outcome, _ => return outcome
      | none, [] => return .fail (.usage .noCommand)
      | none, name :: rest =>
        match Command.ofName? name with
        | some command => command.run files surrounding rest
        | none => return unknownCommand name rest

end VersionGate.CommandLine

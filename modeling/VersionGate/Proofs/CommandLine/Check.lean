import VersionGate.Proofs.CommandLine.Program
import VersionGate.Proofs.Message
import VersionGate.Proofs.Patch
import VersionGate.Proofs.Requirement.Safety

/-!
# The answers of the command line

The command `check` gives the answer that evaluating the expression gives, and its exit code alone
tells which. A malformed expression has a code of its own and is told about; the same code is that
of a command line without a version where one is needed, but then there is no evaluation that it
could be confused with.

## Key results

- `Check.agrees_of_settle`: the outcome for an expression that can be evaluated if it can be read
- `check_agrees_with_evaluator`: every run of the command
-/

namespace VersionGate.CommandLine

/-- What standard error says about a run, if it is explained. -/
def Outcome.complaint? (o : Outcome) : Option String :=
  match o.result with
  | .ok _ => none
  | .error fault => fault.complaint?

/-- The first word picks the command, which runs on what the other words mean. -/
private theorem run_check {m : Type → Type} [Monad m] (files : FileSystem m)
    (surrounding : Option String)
    {words : List String} {w : Words} (hmeans : Means Check.options words w)
    (hhelp : w.has helpOption = false) :
    run files surrounding ("check" :: words) = pure (Check.run surrounding w) := by
  have hname : "check" = Command.check.name := rfl
  rw [hname, run_command, Command.run, readWords_command .check hmeans]
  simp only [hhelp]
  rfl

namespace Check

open Requirement

/-- An outcome that agrees with what comes of reading and evaluating an expression. -/
structure Agrees (o : Outcome) (reading : Except ReadFault Requirement)
    (answer : Except CheckFault Bool) : Prop where
  holds : o.exitCode = 0 ↔ answer = .ok true
  fails : o.exitCode = 1 ↔ answer = .ok false
  refused : o.exitCode = 2 ↔ ∃ cause, reading = .error (.malformed cause)
  written : ∀ b, answer = .ok b → o.output = if b then "true\n" else "false\n"
  told : ∀ cause, reading = .error (.malformed cause) → o.output = "" ∧
    o.complaint? = some ("Error: Invalid value for EXPRESSION: " ++ cause.message ++ "\n")

variable {surrounding : Option String} {w : Words} {e : String} {running : Option Version}

/-- What is asked for, if the running version is no matter of faults. -/
theorem settle_eq (harg : w.arguments = [e]) (h : running? surrounding w = .ok running) :
    settle surrounding w =
      if !w.has needsOption && running.isNone then
        .error (.usage (.noOption [versionOption.long]))
      else .ok (e, running) := by
  rw [settle]
  cases w.has versionOption <;>
    simp only [h, argument, harg, onlyOneArgument, bind, Except.bind] <;> rfl

/-- The evaluation that a command line asks for. -/
def answer (w : Words) (running : Option Version) (e : String) : Except CheckFault Bool :=
  if w.has needsOption then checkNeeds (some (w.valuesOf modOption)) (some e)
  else check running (some e)

/-- What is wrong with the words is what the command fails with. -/
theorem run_of_settle_error {fault : RunFault} (h : settle surrounding w = .error fault) :
    run surrounding w = .fail fault := by
  rw [run, holds, h]
  rfl

/-- An answer is printed, and the exit code says it too. -/
private theorem run_of_answer {b : Bool} (h : settle surrounding w = .ok (e, running))
    (hanswer : answer w running e = .ok b) :
    run surrounding w =
      { output := if b then "true\n" else "false\n", result := .ok (if b then 0 else 1) } := by
  rw [answer] at hanswer
  rw [run, holds, h]
  simp only [bind, Except.bind, hanswer, Except.mapError]
  cases b <;> rfl

/-- A malformed requirement is a wrong use of the command. -/
private theorem run_of_malformed {cause : Malformed} (h : settle surrounding w = .ok (e, running))
    (hanswer : answer w running e = .error (.read (.malformed cause))) :
    run surrounding w = .fail (.usage (.expression cause)) := by
  rw [answer] at hanswer
  rw [run, holds, h]
  simp only [bind, Except.bind, hanswer, Except.mapError]

/-- The complaint about a malformed expression says what is wrong in the words of the reader. -/
private theorem complaint?_expression (cause : Malformed) :
    (RunFault.usage (.expression cause)).complaint? =
      some ("Error: Invalid value for EXPRESSION: " ++ cause.message ++ "\n") := by
  have hfront : "Error: " ++ ("Invalid value for EXPRESSION: " ++ cause.message) =
      "Error: Invalid value for EXPRESSION: " ++ cause.message :=
    String.append_assoc.symm.trans (congrArg (· ++ cause.message) (by decide))
  have hline : Text.AllPrintable ("Error: Invalid value for EXPRESSION: " ++ cause.message) :=
    Text.AllPrintable.append (by decide) cause.allPrintable_message
  rw [← Text.forTerminal_line hline, ← hfront]
  rfl

/-- If an expression is refused for its form alone, and has an answer if it is not refused, the
outcome agrees with the evaluation. -/
private theorem agrees_of_settle {reading : Except ReadFault Requirement}
    (h : settle surrounding w = .ok (e, running))
    (hanswers : AnswersIfRead reading (answer w running e))
    (hform : ∀ numeral, reading ≠ .error (.tooLong numeral)) :
    Agrees (run surrounding w) reading (answer w running e) := by
  -- What is read has an answer, and what is not read is refused in one of two ways, of which one is
  -- excluded.
  cases hreading : reading with
  | ok r =>
    obtain ⟨b, hb⟩ := hanswers.answered.mpr ⟨r, hreading⟩
    rw [run_of_answer h hb, hb]
    cases b <;>
      exact ⟨by simp [Outcome.exitCode], by simp [Outcome.exitCode], by simp [Outcome.exitCode],
        by simp, by simp⟩
  | error fault =>
    have hanswer := (hanswers.refused fault).mpr hreading
    cases fault with
    | tooLong numeral => exact absurd hreading (hform numeral)
    | malformed cause =>
      have hrun := run_of_malformed h hanswer
      have hcode : (run surrounding w).exitCode = 2 := by rw [hrun]; rfl
      rw [hanswer]
      refine ⟨by simp [hcode], by simp [hcode], by simp [hcode], by simp, fun other hother => ?_⟩
      obtain rfl : cause = other := by simpa using hother
      exact ⟨by rw [hrun]; rfl, by rw [hrun]; exact complaint?_expression cause⟩

/-- The check of a version answers what is read. -/
private theorem answersIfRead_check (v : Version) (e : String) :
    AnswersIfRead (read (some e)) (check (some v) (some e)) :=
  answersIfRead_evalRead fun _ hr => exists_eval_of_read hr v

/-- So does the check of mods. -/
private theorem answersIfRead_checkNeeds (mods : List String) (e : String) :
    AnswersIfRead (readNeeds (some e)) (checkNeeds (some mods) (some e)) :=
  answersIfRead_evalRead fun _ hr => exists_eval_of_readNeeds hr mods

end Check

open Check Requirement in
/-- However the command `check` is given its options and an expression: without the option for mods,
it agrees with the evaluation for the version that is given, as long as no numeral of the expression
is too long, and refuses to answer if none is given. With it, the command agrees with the evaluation
for the mods that are named, whether a version is given or not. -/
theorem check_agrees_with_evaluator {m : Type → Type} [Monad m] (files : FileSystem m)
    (surrounding : Option String) {words : List String} {w : Words} {e : String}
    (hmeans : Means Check.options words w) (hhelp : w.has helpOption = false)
    (harg : w.arguments = [e]) :
    ∃ o, run files surrounding ("check" :: words) = pure o ∧
      (w.has needsOption = false → NoVersionGiven surrounding w →
        o.exitCode = 2 ∧ o.output = "") ∧
      (w.has needsOption = false → ¬Decimal.HasLongNumeral e.toList →
        ∀ v : Version, v.isComplete = true → v.IsReadable → VersionGiven surrounding w v.text →
          Agrees o (read (some e)) (check (some v) (some e))) ∧
      (w.has needsOption = true → (NoVersionGiven surrounding w ∨
          ∃ v : Version, v.isComplete = true ∧ v.IsReadable ∧ VersionGiven surrounding w v.text) →
        Agrees o (readNeeds (some e)) (checkNeeds (some (w.valuesOf modOption)) (some e))) := by
  refine ⟨_, run_check files surrounding hmeans hhelp, fun hneeds hnone => ?_,
    fun hneeds hshort v hcomplete hreadable hgiven => ?_, fun hneeds hversion => ?_⟩
  · -- Without a version the command fails before it reads the expression.
    have hsettle := settle_eq harg (running?_of_none hnone)
    rw [hneeds] at hsettle
    rw [run_of_settle_error hsettle]
    exact ⟨rfl, rfl⟩
  · -- With a version, the answer is that of the evaluator, if no numeral in the expression is too
    -- long to be read.
    have hsettle := settle_eq harg (running?_of_text hcomplete hreadable hgiven)
    rw [hneeds] at hsettle
    have hanswer : answer w (some v) e = check (some v) (some e) := by
      rw [answer, hneeds, if_neg (by decide)]
    rw [← hanswer]
    apply agrees_of_settle hsettle
    · rw [hanswer]
      exact answersIfRead_check v e
    · exact fun numeral hlong => hshort (hasLongNumeral_of_read hlong)
  · -- For mods a version may be given, but it has to be one. Then it does not matter to the answer.
    obtain ⟨running, hrunning⟩ : ∃ running, running? surrounding w = .ok running := by
      rcases hversion with hnone | ⟨v, hcomplete, hreadable, hgiven⟩
      · exact ⟨none, running?_of_none hnone⟩
      · exact ⟨some v, running?_of_text hcomplete hreadable hgiven⟩
    have hsettle := settle_eq harg hrunning
    rw [hneeds] at hsettle
    have hanswer : answer w running e =
        checkNeeds (some (w.valuesOf modOption)) (some e) := by
      rw [answer, hneeds, if_pos rfl]
    rw [← hanswer]
    apply agrees_of_settle hsettle
    · rw [hanswer]
      exact answersIfRead_checkNeeds (w.valuesOf modOption) e
    · -- there are no numerals in the names of mods
      intro numeral hlong
      obtain ⟨cause, hcause⟩ := exists_malformed_of_readNeeds hlong
      contradiction

/-- The version on the command line goes before that of the surroundings, for which the expression
does not hold. -/
theorem check_agrees_with_evaluator_option :
    ∃ o, run Files.system (some "1.7.3") ["check", "-g", "1.8.1", ">≈1.8"] = pure o ∧
      o.exitCode = 0 ∧ o.output = "true\n" := by
  let w : Words := { options := [(versionOption, "1.8.1")], arguments := [">≈1.8"] }
  have hoption : MeansWord Check.options "-g" [] (some versionOption) :=
    .short (.waiting (by decide) (by decide) (by decide))
  have hmeans : Means Check.options ["-g", "1.8.1", ">≈1.8"] w :=
    .value "1.8.1" hoption (.argument (by decide) .nothing)
  have hshort : ¬Decimal.HasLongNumeral ">≈1.8".toList := Decimal.not_hasLongNumeral (by decide)
  have hreadable : (Version.full 1 8 1).IsReadable := by decide +kernel
  obtain ⟨o, hrun, -, hanswer, -⟩ := check_agrees_with_evaluator Files.system (some "1.7.3") hmeans
    (by decide) rfl
  have hagrees := hanswer (by decide) hshort (.full 1 8 1) rfl hreadable (.option (by decide))
  have hholds : Requirement.check (some (.full 1 8 1)) (some ">≈1.8") = .ok true :=
    Requirement.check_term (b := "1.8") (v := .minor 1 8) rfl .greaterEquivalent (.full 1 8 1)
  exact ⟨o, hrun, hagrees.holds.mpr hholds, hagrees.written true hholds⟩

end VersionGate.CommandLine

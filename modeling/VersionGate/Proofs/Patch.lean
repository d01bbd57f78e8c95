import VersionGate.Checker
import VersionGate.Proofs.Pruning.Failure
import VersionGate.Proofs.Requirement.Safety
import VersionGate.Proofs.Requirement.Single

/-!
# What a checked patch reports

A patch fails only because one of its requirements cannot be read. A requirement that is malformed
is reported, once and with its cause. A numeral that is too long is no matter of form, and a patch
that fails for one reports nothing. A pass over a tree makes no such difference and reports either.

## Key results

- `Patch.checkOne_cases`: what becomes of one requirement of a patch
- `Patch.check_cases`: what becomes of a patch
- `Pruning.causes_reports_prune`: the one failure that a pass over a tree reports
- `checkPatch_reports_unless_overlong`: which failures of a patch are reported
-/

namespace VersionGate

open Config Pruning

/-- The failure that a report carries. -/
def Report.cause? : Report → Option Failure
  | .failed _ cause => some cause
  | _ => none

/-- A report without a cause is one of no failure. -/
private theorem Report.cause?_eq_none_iff {r : Report} : r.cause? = none ↔ r.isFailure = false := by
  cases r <;> simp [cause?, isFailure]

/-! ## Why a requirement cannot be checked -/

namespace Requirement

/-- With a running version, checking fails only where reading does. -/
private theorem exists_readFault_of_check_error {running : Version} {text : Option String}
    {fault : CheckFault} (h : check running text = .error fault) :
    ∃ e, fault = .read e ∧ read text = .error e := by
  cases hread : read text with
  | error e =>
    rw [check_of_read_error hread] at h
    exact ⟨e, (Except.error.inj h).symm, rfl⟩
  | ok r =>
    obtain ⟨b, hb⟩ := exists_check_of_read hread running
    rw [hb] at h
    contradiction

/-- A numeral that is too long is one that cannot be read. -/
theorem check_of_overlong {digits : List Char} (hnumeral : Version.isNumeral digits = true)
    (hlong : Decimal.maxDigits < digits.length) (running : Option Version) :
    check running (some (String.ofList digits)) =
      .error (.read (.tooLong ⟨some digits.length⟩)) := by
  have hread : Version.readNumeral digits = .error (.tooLong ⟨some digits.length⟩) := by
    rw [Version.readNumeral, Decimal.read, if_neg (Nat.not_le.mpr hlong)]
    rfl
  have hbound : Version.readChars? (String.ofList digits).toList =
      some (.error (.tooLong ⟨some digits.length⟩)) := by
    rw [String.toList_ofList, Version.readChars?_of_isNumeral hnumeral, hread]
    rfl
  have hterm := read_term hbound .bare
  have htext : Comparator.bare.symbol ++ String.ofList digits = String.ofList digits :=
    String.empty_append
  rw [htext] at hterm
  exact check_of_read_error hterm running

/-- A requirement on mods has no numerals that could be too long. -/
theorem exists_malformed_of_readNeeds {text : Option String} {fault : ReadFault}
    (h : readNeeds text = .error fault) : ∃ cause, fault = .malformed cause := by
  cases text with
  | none => exact ⟨_, (Except.error.inj h).symm⟩
  | some s =>
    by_cases hne : s = ""
    · subst hne
      exact ⟨_, (Except.error.inj h).symm⟩
    · -- The fault is that of an atom, and an atom is refused for its form.
      rw [readNeeds, readWith_eq_reading modAtom hne, reading_eq_error_iff] at h
      obtain ⟨-, piece, -, -, -, hpiece⟩ := h
      rw [modAtom] at hpiece
      split at hpiece
      · contradiction
      · exact ⟨_, (Except.error.inj hpiece).symm⟩

/-- With a list of mods, checking fails only for a malformed text. -/
private theorem exists_malformed_of_checkNeeds_error {mods : List String} {text : Option String}
    {fault : CheckFault} (h : checkNeeds mods text = .error fault) :
    ∃ cause, fault = .read (.malformed cause) := by
  cases hread : readNeeds text with
  | error e =>
    obtain ⟨cause, rfl⟩ := exists_malformed_of_readNeeds hread
    rw [checkNeeds, hread, evalRead] at h
    exact ⟨cause, (Except.error.inj h).symm⟩
  | ok r =>
    obtain ⟨b, hb⟩ := exists_eval_of_readNeeds hread mods
    rw [checkNeeds, hread, evalRead, hb] at h
    contradiction

end Requirement

/-! ## The requirements of a patch -/

namespace Patch

open Requirement

variable {source : String} {unmet : Report} {check : String → Except CheckFault Bool}
  {text : Option String}

/-- What becomes of one requirement: it holds, it does not and is reported, it is malformed and is
reported with its cause, or it fails otherwise without a report. -/
private theorem checkOne_cases (source : String) (unmet : Report)
    (check : String → Except CheckFault Bool) (text : Option String) :
    checkOne source unmet check text = ⟨.ok true, []⟩ ∨
    checkOne source unmet check text = ⟨.ok false, [unmet]⟩ ∨
    ∃ s fault, text = some s ∧ check s = .error fault ∧
      ((∃ cause, fault = .read (.malformed cause) ∧ checkOne source unmet check text =
          ⟨.error fault, [.failed ("Malformed root expression in " ++ source)
            (.read (.malformed cause))]⟩) ∨
        (∀ cause, fault ≠ .read (.malformed cause)) ∧
          checkOne source unmet check text = ⟨.error fault, []⟩) := by
  cases text with
  | none => exact .inl rfl
  | some s =>
    cases hcheck : check s with
    | ok holds =>
      cases holds with
      | true => exact .inl (by simp [checkOne, hcheck])
      | false => exact .inr (.inl (by simp [checkOne, hcheck]))
    | error fault =>
      refine .inr (.inr ⟨s, fault, rfl, hcheck, ?_⟩)
      -- of the faults only one is reported
      by_cases hmalformed : ∃ cause, fault = .read (.malformed cause)
      · obtain ⟨cause, rfl⟩ := hmalformed
        exact .inl ⟨cause, rfl, by simp [checkOne, hcheck]⟩
      · simp only [not_exists] at hmalformed
        exact .inr ⟨hmalformed, by simp [checkOne, hcheck]⟩

/-- How a patch is checked: it is decided and no failure is reported, a requirement is malformed and
that is reported, or a numeral of the version requirement is too long and nothing is reported. -/
private theorem check_cases (running : Version) (mods : List String) (p : Patch) :
    (∃ b reports, p.check running mods = ⟨.ok b, reports⟩ ∧ ∀ r ∈ reports, r.isFailure = false) ∨
    (∃ cause, p.check running mods = ⟨.error (.read (.malformed cause)),
      [.failed ("Malformed root expression in " ++ p.source) (.read (.malformed cause))]⟩) ∨
    ∃ numeral, read p.version = .error (.tooLong numeral) ∧
      p.check running mods = ⟨.error (.read (.tooLong numeral)), []⟩ := by
  rw [Patch.check]
  rcases checkOne_cases p.source (.rootRemoved p.source)
      (fun text => Requirement.check running text) p.version with
    h | h | ⟨s, fault, hs, hcheck, ⟨cause, rfl, h⟩ | ⟨hother, h⟩⟩
  · -- The version requirement holds, and the other one decides.
    simp only [h]
    rcases checkOne_cases p.source (.rootNeedsMods p.source)
        (fun text => checkNeeds mods text) p.needs with
      h' | h' | ⟨s, fault, -, hcheck, ⟨cause, rfl, h'⟩ | ⟨hother, h'⟩⟩
    · exact .inl ⟨true, [], h', by simp⟩
    · exact .inl ⟨false, [.rootNeedsMods p.source], h', by simp [Report.isFailure]⟩
    · exact .inr (.inl ⟨cause, h'⟩)
    · obtain ⟨cause, rfl⟩ := exists_malformed_of_checkNeeds_error hcheck
      exact absurd rfl (hother cause)
  · -- The version requirement decides alone: it does not hold, or cannot be read.
    simp only [h]
    exact .inl ⟨false, [.rootRemoved p.source], rfl, by simp [Report.isFailure]⟩
  · simp only [h]
    exact .inr (.inl ⟨cause, rfl⟩)
  · obtain ⟨e, rfl, hread⟩ := exists_readFault_of_check_error hcheck
    simp only [h]
    cases e with
    | malformed cause => exact absurd rfl (hother cause)
    | tooLong numeral => exact .inr (.inr ⟨numeral, by rw [hs, hread], rfl⟩)

/-- A patch whose version requirement has a numeral that is too long fails, and nobody is told. -/
theorem check_of_overlong {p : Patch} {text : String} {running : Version}
    {numeral : Decimal.TooLong} (hversion : p.version = some text)
    (h : Requirement.check running text = .error (.read (.tooLong numeral)))
    (mods : List String) :
    p.check running mods = ⟨.error (.read (.tooLong numeral)), []⟩ := by
  rw [Patch.check, hversion, checkOne, h]

end Patch

/-! ## The failures among the reports -/

/-- A pass over a tree reports the fault that it ends with, and no other failure. -/
theorem Pruning.causes_reports_prune (running : Version) (source : String) (tree : Node) :
    ((prune running tree).reports source).filterMap Report.cause? =
      (prune running tree).fault.toList.map .name := by
  have hfront : ((reached (walk running tree)).flatMap
      (·.reports running source)).filterMap Report.cause? = [] := by
    rw [List.filterMap_eq_nil_iff]
    intro r hr
    obtain ⟨x, -, hx⟩ := List.mem_flatMap.mp hr
    exact Report.cause?_eq_none_iff.mpr (isFailure_of_mem_reports hx)
  rw [reports_prune, List.filterMap_append, hfront, List.nil_append, prune, pruneNode_fault,
    firstFault_eq, walk]
  cases firstMalformed (visits running tree.name tree) with
  | none => rfl
  | some x =>
    rw [Option.bind_some, Option.bind_some, Visit.failure?]
    cases NameFault.of? x.name <;> rfl

/-- A patch that can be decided reports no failure. One that cannot, for the fault of one of its
requirements, reports this fault and no other, unless a numeral is too long: this can only be one of
the version requirement, and then nothing is reported. A pass over a tree reports whatever fault it
ends with, and no other. -/
theorem checkPatch_reports_unless_overlong (c : Checker) (mods : List String) (p : Patch) :
    let checked := c.checkPatch mods p
    (∀ b, checked.applies = .ok b → checked.reports.filterMap Report.cause? = []) ∧
    (∀ fault, checked.applies = .error fault → ∃ e, fault = .read e ∧
      (checked.reports.filterMap Report.cause? = [.read e] ↔ ¬e.IsOverlong) ∧
      (e.IsOverlong → Requirement.read p.version = .error e ∧ checked.reports = [])) ∧
    ∀ tree source, ∃ outcome, c.prune (some tree) (some source) = .ok (source, outcome) ∧
      (outcome.reports source).filterMap Report.cause? = outcome.fault.toList.map .name := by
  intro checked
  refine ⟨fun b hb => ?_, fun fault hfault => ?_, fun tree source =>
    ⟨prune c.running tree, rfl, causes_reports_prune c.running source tree⟩⟩
  · -- An answer excludes the two ways in which the check fails.
    rcases Patch.check_cases c.running mods p with
      ⟨b, reports, h, hnone⟩ | ⟨cause, h⟩ | ⟨numeral, -, h⟩
    · have hreports : checked.reports = reports := congrArg (·.reports) h
      rw [hreports, List.filterMap_eq_nil_iff]
      exact fun r hr => Report.cause?_eq_none_iff.mpr (hnone r hr)
    · exact nomatch hb.symm.trans (congrArg (·.applies) h)
    · exact nomatch hb.symm.trans (congrArg (·.applies) h)
  · rcases Patch.check_cases c.running mods p with
      ⟨b, reports, h, -⟩ | ⟨cause, h⟩ | ⟨numeral, hread, h⟩
    · -- And a fault excludes the answer. A malformed requirement is reported, and a numeral that is
      -- too long is not.
      exact nomatch hfault.symm.trans (congrArg (·.applies) h)
    · have hnot : ¬(ReadFault.malformed cause).IsOverlong := by
        rintro ⟨digits, -, h⟩
        contradiction
      have hreports : checked.reports = _ := congrArg (·.reports) h
      refine ⟨.malformed cause, Except.error.inj (hfault.symm.trans (congrArg (·.applies) h)), ?_,
        fun hlong => absurd hlong hnot⟩
      rw [hreports]
      simp [Report.cause?, hnot]
    · have hlong := Requirement.isOverlong_of_read hread
      have hreports : checked.reports = [] := congrArg (·.reports) h
      refine ⟨.tooLong numeral, Except.error.inj (hfault.symm.trans (congrArg (·.applies) h)), ?_,
        fun _ => ⟨hread, hreports⟩⟩
      rw [hreports]
      simp [hlong]

/-- A row of ones for which the numeral of a version has no room. -/
private def ones : List Char := List.replicate (Decimal.maxDigits + 1) '1'

/-- A version requirement with such a numeral fails the patch, and nobody is told. -/
theorem checkPatch_silent_on_long_numeral :
    let checked := (⟨0, .full 1 8 1, rfl⟩ : Checker).checkPatch []
      ⟨"GameData/a.cfg", .edit, "PART", some (String.ofList ones), none⟩
    checked.applies = .error (.read (.tooLong ⟨some ones.length⟩)) ∧ checked.reports = [] := by
  have hnumeral : Version.isNumeral ones = true := by
    simp only [Version.isNumeral, ones, List.all_replicate]
    rfl
  have hlong : Decimal.maxDigits < ones.length := by
    rw [ones, List.length_replicate]
    exact Nat.lt_succ_self _
  have hcheck := Requirement.check_of_overlong hnumeral hlong (some (.full 1 8 1))
  intro checked
  have hchecked : checked = ⟨.error (.read (.tooLong ⟨some ones.length⟩)), []⟩ :=
    Patch.check_of_overlong rfl hcheck []
  exact ⟨congrArg (·.applies) hchecked, congrArg (·.reports) hchecked⟩

end VersionGate

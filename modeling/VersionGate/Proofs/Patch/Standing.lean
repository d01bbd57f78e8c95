import VersionGate.Proofs.Patch
import VersionGate.Proofs.Requirement.Facts

/-!
# What becomes of a patch

Each of the two requirements of a patch is met, unmet or malformed; one that is missing is met. How
the two of them stand decides everything about the check: its result, and what is reported. The
version requirement comes first. Only if it is met does it matter how the other one stands.

## Key results

- `exists_stands_version`, `exists_stands_needs`: each requirement stands in one way
- `Patch.check_of_stands`: what becomes of a patch by how its requirements stand
- `checkPatch_settles`: the outcomes of checking a patch, with all that is reported
-/

namespace VersionGate

open Requirement

namespace Patch

/-- How one of the requirements of a patch stands. -/
inductive Standing where
  | met
  | unmet
  | malformed (cause : Malformed)

/-- How the requirement in a text stands, if there is a text. What is read from it either holds or
does not. -/
inductive Stands (reading : Option String → Except ReadFault Requirement)
    (holds : Requirement → Prop) : Option String → Standing → Prop
  | absent : Stands reading holds none .met
  | met {text : String} {r : Requirement} (hread : reading (some text) = .ok r)
      (hr : holds r) : Stands reading holds (some text) .met
  | unmet {text : String} {r : Requirement} (hread : reading (some text) = .ok r)
      (hr : ¬holds r) : Stands reading holds (some text) .unmet
  | malformed {text : String} {cause : Malformed}
      (hread : reading (some text) = .error (.malformed cause)) :
      Stands reading holds (some text) (.malformed cause)

/-- A patch that fails for a malformed requirement, which is reported with its cause. -/
def refused (p : Patch) (cause : Malformed) : Outcome :=
  ⟨.error (.read (.malformed cause)),
    [.failed ("Malformed root expression in " ++ p.source) (.read (.malformed cause))]⟩

/-- What becomes of one requirement by how it stands; `unmet` is reported if it is not met. -/
def settledOne (p : Patch) (unmet : Report) : Standing → Outcome
  | .met => ⟨.ok true, []⟩
  | .unmet => ⟨.ok false, [unmet]⟩
  | .malformed cause => p.refused cause

/-- What becomes of a patch by how its requirements stand, the one on the version first. -/
def settled (p : Patch) : Standing → Standing → Outcome
  | .malformed cause, _ => p.refused cause
  | .unmet, _ => ⟨.ok false, [.rootRemoved p.source]⟩
  | .met, .malformed cause => p.refused cause
  | .met, .unmet => ⟨.ok false, [.rootNeedsMods p.source]⟩
  | .met, .met => ⟨.ok true, []⟩

section

variable {reading : Option String → Except ReadFault Requirement} {holds : Requirement → Prop}
  {text : Option String}

/-- A requirement stands in one way only. -/
theorem Stands.unique {standing other : Standing} (h : Stands reading holds text standing)
    (h' : Stands reading holds text other) : standing = other := by
  -- Two ways of standing would read the text in two ways, or what is read would hold and not hold.
  cases h with
  | absent => cases h' with | absent => rfl
  | met hread hr =>
    cases h' with
    | met => rfl
    | unmet hread' hr' =>
      rw [hread, Except.ok.injEq] at hread'
      exact absurd (hread' ▸ hr) hr'
    | malformed hread' => exact nomatch hread.symm.trans hread'
  | unmet hread hr =>
    cases h' with
    | met hread' hr' =>
      rw [hread, Except.ok.injEq] at hread'
      exact absurd (hread' ▸ hr') hr
    | unmet => rfl
    | malformed hread' => exact nomatch hread.symm.trans hread'
  | malformed hread =>
    cases h' with
    | met hread' => exact nomatch hread.symm.trans hread'
    | unmet hread' => exact nomatch hread.symm.trans hread'
    | malformed hread' =>
      rw [hread, Except.error.injEq, ReadFault.malformed.injEq] at hread'
      rw [hread']

/-- A requirement stands in some way if its text can only be refused for its form. -/
private theorem exists_stands (h : ∀ s fault, text = some s → reading (some s) = .error fault →
    ∃ cause, fault = .malformed cause) : ∃ standing, Stands reading holds text standing := by
  cases text with
  | none => exact ⟨_, .absent⟩
  | some s =>
    cases hread : reading (some s) with
    | error fault =>
      obtain ⟨cause, rfl⟩ := h s fault rfl hread
      exact ⟨_, .malformed hread⟩
    | ok r =>
      by_cases hr : holds r
      · exact ⟨_, .met hread hr⟩
      · exact ⟨_, .unmet hread hr⟩

/-- Checks that answer a text that is read by whether it holds, and that fail where reading does. -/
structure Checks (reading : Option String → Except ReadFault Requirement)
    (holds : Requirement → Prop) (check : String → Except CheckFault Bool) : Prop where
  answer : ∀ {s r}, reading (some s) = .ok r → ∃ b, check s = .ok b ∧ (b = true ↔ holds r)
  fault : ∀ {s e}, reading (some s) = .error e → check s = .error (.read e)

/-- What becomes of one requirement of a patch by how it stands. -/
private theorem checkOne_of_stands {check : String → Except CheckFault Bool}
    (hcheck : Checks reading holds check) {standing : Standing}
    (h : Stands reading holds text standing) (p : Patch) (unmet : Report) :
    checkOne p.source unmet check text = p.settledOne unmet standing := by
  cases h with
  | absent => rfl
  | met hread hr =>
    obtain ⟨b, hb, hholds⟩ := hcheck.answer hread
    rw [hholds.mpr hr] at hb
    simp only [checkOne, hb, settledOne]
  | unmet hread hr =>
    obtain ⟨b, hb, hholds⟩ := hcheck.answer hread
    rw [Bool.eq_false_iff.mpr (mt hholds.mp hr)] at hb
    simp only [checkOne, hb, settledOne]
  | malformed hread => simp only [checkOne, hcheck.fault hread, settledOne, refused]

end

variable (running : Version) (mods : List String)

/-- The check of a version answers for the requirement on it. -/
private theorem checks_version :
    Checks read (Holds running mods) fun text => Requirement.check running text where
  answer {s r} hread := by
    obtain ⟨b, hb⟩ := exists_eval_of_read hread running
    have hproper : IsProper r := by
      refine isProper_of_isFlat ?_ (isFlat_of_read hread)
      rintro - ⟨t, rfl, -⟩
      trivial
    refine ⟨b, ?_, eval_iff_holds (Facts.within_mods running mods) hproper hb⟩
    rw [Requirement.check, hread, evalRead, hb]
    rfl
  fault hread := check_of_read_error hread running

/-- The check of the mods answers for the requirement on them. -/
private theorem checks_needs :
    Checks readNeeds (Holds running mods) fun text => checkNeeds mods text where
  answer {s r} hread := by
    obtain ⟨b, hb⟩ := exists_eval_of_readNeeds hread mods
    have hproper : IsProper r := by
      refine isProper_of_isFlat ?_ (isFlat_of_readNeeds hread)
      rintro - ⟨name, rfl, -⟩
      trivial
    refine ⟨b, ?_, eval_iff_holds (Facts.within_running running mods) hproper hb⟩
    rw [checkNeeds, hread, evalRead, hb]
    rfl
  fault hread := by rw [checkNeeds, hread, evalRead]

variable {p : Patch}

/-- A version requirement without a numeral that is too long stands in some way. -/
theorem exists_stands_version (h : ∀ text ∈ p.version, ¬Decimal.HasLongNumeral text.toList) :
    ∃ standing, Stands read (Holds running mods) p.version standing := by
  refine exists_stands fun s fault hs hread => ?_
  cases fault with
  | malformed cause => exact ⟨cause, rfl⟩
  | tooLong numeral => exact absurd (hasLongNumeral_of_read hread) (h s hs)

/-- A requirement on mods always stands in some way. -/
theorem exists_stands_needs (p : Patch) :
    ∃ standing, Stands readNeeds (Holds running mods) p.needs standing :=
  exists_stands fun _ _ _ => exists_malformed_of_readNeeds

variable {running mods}

/-- How its requirements stand decides what becomes of a patch. -/
private theorem check_of_stands {onVersion onMods : Standing}
    (hversion : Stands read (Holds running mods) p.version onVersion)
    (hmods : Stands readNeeds (Holds running mods) p.needs onMods) :
    p.check running mods = p.settled onVersion onMods := by
  have hfirst := checkOne_of_stands (checks_version running mods) hversion p (.rootRemoved p.source)
  have hsecond := checkOne_of_stands (checks_needs running mods) hmods p (.rootNeedsMods p.source)
  rw [Patch.check, hfirst]
  cases onVersion with
  | malformed cause => rfl
  | unmet => rfl
  | met =>
    -- Only now does the requirement on mods count.
    simp only [hsecond]
    cases onMods <;> rfl

/-- A patch makes at most one report, and none exactly if it applies. -/
private theorem reports_settled (p : Patch) (onVersion onMods : Standing) :
    (p.settled onVersion onMods).reports.length ≤ 1 ∧
      ((p.settled onVersion onMods).applies = .ok true ↔
        (p.settled onVersion onMods).reports = []) := by
  cases onVersion with
  | met => cases onMods <;> simp [settled, refused]
  | unmet | malformed => simp [settled, refused]

end Patch

/-- Without a numeral that is too long in its version requirement, each of the requirements of a
patch stands in exactly one way: it is met, as one that is missing is, or it is unmet or malformed.
How they stand decides what becomes of the patch and what is reported: a malformed requirement fails
the patch and is reported with its cause, one that is not met is reported as such, and the
requirement on mods counts only if the other one is met. There is at most one report, and there is
none exactly if the patch applies. -/
theorem checkPatch_settles (c : Checker) (mods : List String) (p : Patch)
    (h : ∀ text ∈ p.version, ¬Decimal.HasLongNumeral text.toList) :
    let checked := c.checkPatch mods p
    (∃! onVersion, Patch.Stands read (Holds c.running mods) p.version onVersion) ∧
    (∃! onMods, Patch.Stands readNeeds (Holds c.running mods) p.needs onMods) ∧
    (∀ onVersion onMods, Patch.Stands read (Holds c.running mods) p.version onVersion →
      Patch.Stands readNeeds (Holds c.running mods) p.needs onMods →
      checked = p.settled onVersion onMods) ∧
    checked.reports.length ≤ 1 ∧ (checked.applies = .ok true ↔ checked.reports = []) := by
  intro checked
  obtain ⟨onVersion, hversion⟩ := Patch.exists_stands_version c.running mods h
  obtain ⟨onMods, hmods⟩ := Patch.exists_stands_needs c.running mods p
  have hchecked : checked = p.settled onVersion onMods := Patch.check_of_stands hversion hmods
  refine ⟨⟨onVersion, hversion, fun _ h' => h'.unique hversion⟩,
    ⟨onMods, hmods, fun _ h' => h'.unique hmods⟩, fun _ _ => Patch.check_of_stands, ?_⟩
  rw [hchecked]
  exact Patch.reports_settled p onVersion onMods

/-- A patch for later versions does not apply, and its malformed requirement on mods goes unseen. An
empty version requirement is there and is malformed, whatever the mods are. -/
theorem checkPatch_settles_version_first :
    let c : Checker := ⟨0, .full 1 8 1, rfl⟩
    let later : Patch := ⟨"GameData/a.cfg", .edit, "PART", some ">≈1.9", some "RO RSS"⟩
    let empty : Patch := ⟨"GameData/a.cfg", .edit, "PART", some "", some "RO RSS"⟩
    (∀ text ∈ later.version, ¬Decimal.HasLongNumeral text.toList) ∧
    (∀ text ∈ empty.version, ¬Decimal.HasLongNumeral text.toList) ∧
      c.checkPatch ["RO"] later = ⟨.ok false, [.rootRemoved "GameData/a.cfg"]⟩ ∧
      c.checkPatch ["RO"] empty = empty.refused .emptyRequirement := by
  intro c later empty
  have hlater : ∀ text ∈ later.version, ¬Decimal.HasLongNumeral text.toList := by
    rintro - ⟨⟩
    exact Decimal.not_hasLongNumeral (by decide)
  have hempty : ∀ text ∈ empty.version, ¬Decimal.HasLongNumeral text.toList := by
    rintro - ⟨⟩
    exact Decimal.not_hasLongNumeral (by decide)
  have hread : read (some ">≈1.9") =
      .ok (.allOf [.anyOf [.version ⟨.greaterEquivalent, .minor 1 9⟩]]) :=
    (readWith_eq_reading versionAtom (by decide)).trans rfl
  have hneeds : Patch.Stands readNeeds (Holds c.running ["RO"]) (some "RO RSS")
      (.malformed (.modName "RO RSS")) :=
    .malformed ((readWith_eq_reading modAtom (by decide)).trans rfl)
  obtain ⟨-, -, hsettled, -⟩ := checkPatch_settles c ["RO"] later hlater
  obtain ⟨-, -, hsettled', -⟩ := checkPatch_settles c ["RO"] empty hempty
  refine ⟨hlater, hempty, hsettled .unmet _ (.unmet hread ?_) hneeds,
    hsettled' (.malformed .emptyRequirement) _ (.malformed rfl) hneeds⟩
  simp only [Holds, AllHold, SomeHolds, Comparator.Wants]
  decide

end VersionGate

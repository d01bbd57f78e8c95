import VersionGate.Proofs.Requirement.Evaluation

/-!
# Facts that are missing

A requirement can be evaluated without the running version or without the installed mods, as long as
no part is reached that asks for them. An answer that was found in this way is final: whatever the
missing fact turns out to be, the same parts are gone through, and they decide in the same way. With
both facts every requirement has an answer unless it holds data of another kind, and the answer is
what the requirement says, in whatever order its groups and terms stand.

## Key results

- `eval_of_within`: an answer stays when more is known
- `exists_eval_iff_holds`: with both facts the answer is what a requirement says
- `Reordered.eval_eq`: the order of groups and terms does not matter then
- `eval_keeps_answers`: missing facts never change an answer
-/

namespace VersionGate

/-- The differences from the bound that a comparator asks for. -/
def Comparator.Wants : Comparator → Int → Prop
  | bare, d | equivalent, d => d = 0
  | greater, d => 0 < d
  | greaterEquivalent, d => 0 ≤ d
  | less, d => d < 0
  | lessEquivalent, d => d ≤ 0

/-- A comparator accepts the differences that it wants. -/
private theorem Comparator.accepts_iff {comparator : Comparator} {d : Int} :
    comparator.accepts d = true ↔ comparator.Wants d := by
  cases comparator <;> simp [accepts, Wants]

namespace Requirement

/-! ## What a requirement says -/

mutual

/-- What a requirement says of a running version and of the installed mods. -/
def Holds (running : Version) (mods : List String) : Requirement → Prop
  | .allOf groups => AllHold running mods groups
  | .anyOf terms => SomeHolds running mods terms
  | .negation operand => ¬Holds running mods operand
  | .version term => term.comparator.Wants (running.compare term.bound)
  | .mod name => Text.lower name ∈ mods.map Text.lower
  | .versus _ | .foreign _ => False

/-- Each of some requirements holds. -/
def AllHold (running : Version) (mods : List String) : List Requirement → Prop
  | [] => True
  | r :: rs => Holds running mods r ∧ AllHold running mods rs

/-- One of some requirements holds. -/
def SomeHolds (running : Version) (mods : List String) : List Requirement → Prop
  | [] => False
  | r :: rs => Holds running mods r ∨ SomeHolds running mods rs

end

mutual

/-- There is no data of another kind in a requirement. -/
def IsProper : Requirement → Prop
  | .allOf parts | .anyOf parts => AllProper parts
  | .negation operand => IsProper operand
  | .version _ | .mod _ => True
  | .versus _ | .foreign _ => False

/-- There is no data of another kind in some requirements. -/
def AllProper : List Requirement → Prop
  | [] => True
  | r :: rs => IsProper r ∧ AllProper rs

end

variable {running : Version} {mods : List String}

/-- All of some requirements hold if each one does. -/
private theorem allHold_iff {rs : List Requirement} :
    AllHold running mods rs ↔ ∀ r ∈ rs, Holds running mods r := by
  induction rs with
  | nil => simp [AllHold]
  | cons r rs ih => rw [AllHold, ih, List.forall_mem_cons]

/-- Some of them holds if there is one that does. -/
private theorem someHolds_iff {rs : List Requirement} :
    SomeHolds running mods rs ↔ ∃ r ∈ rs, Holds running mods r := by
  induction rs with
  | nil => simp [SomeHolds]
  | cons r rs ih => rw [SomeHolds, ih, List.exists_mem_cons_iff]

/-- All of them are proper if each one is. -/
private theorem allProper_iff {rs : List Requirement} : AllProper rs ↔ ∀ r ∈ rs, IsProper r := by
  induction rs with
  | nil => simp [AllProper]
  | cons r rs ih => rw [AllProper, ih, List.forall_mem_cons]

/-! ## With both facts -/

section

variable (running : Version) (mods : List String)

mutual

/-- With both facts a requirement without data of another kind has an answer, and this is what the
requirement says. -/
theorem exists_eval_iff_holds : ∀ {r : Requirement}, IsProper r →
    ∃ b, eval ⟨some running, some mods⟩ r = .ok b ∧ (b = true ↔ Holds running mods r)
  | .allOf groups, h => by
    rw [eval, Holds]
    exact exists_evalAll_iff_allHold h
  | .anyOf terms, h => by
    rw [eval, Holds]
    exact exists_evalAny_iff_someHolds h
  | .negation operand, h => by
    have hoperand : IsProper operand := h
    obtain ⟨b, hb, hholds⟩ := exists_eval_iff_holds hoperand
    refine ⟨!b, by rw [eval, hb]; rfl, ?_⟩
    rw [Holds, ← hholds, Bool.not_eq_true', Bool.not_eq_true]
  | .version term, _ => by
    refine ⟨term.holds running, by rw [eval], ?_⟩
    -- the comparator says which signs of the difference are wanted
    rw [Holds, Term.holds, Comparator.accepts_iff]
  | .mod name, _ => by
    refine ⟨Facts.installed mods name, by rw [eval], ?_⟩
    rw [Holds, installed_iff]
  | .versus kind, h => h.elim
  | .foreign kind, h => h.elim

/-- A conjunction has an answer too: whether all of its parts hold. -/
private theorem exists_evalAll_iff_allHold : ∀ {rs : List Requirement}, AllProper rs →
    ∃ b, evalAll ⟨some running, some mods⟩ rs = .ok b ∧ (b = true ↔ AllHold running mods rs)
  | [], _ => ⟨true, by rw [evalAll], by simp [AllHold]⟩
  | r :: rs, h => by
    obtain ⟨hr, hrs⟩ : IsProper r ∧ AllProper rs := h
    obtain ⟨b, hb, hholds⟩ := exists_eval_iff_holds hr
    rw [evalAll, hb, AllHold, ← hholds]
    -- The first group that does not hold decides, and those behind it are not looked at.
    cases b with
    | false => exact ⟨false, rfl, by simp⟩
    | true =>
      obtain ⟨c, hc, hrest⟩ := exists_evalAll_iff_allHold hrs
      exact ⟨c, hc, by simp [hrest]⟩

/-- A disjunction has an answer too: whether one of its parts holds. -/
private theorem exists_evalAny_iff_someHolds : ∀ {rs : List Requirement}, AllProper rs →
    ∃ b, evalAny ⟨some running, some mods⟩ rs = .ok b ∧ (b = true ↔ SomeHolds running mods rs)
  | [], _ => ⟨false, by rw [evalAny], by simp [SomeHolds]⟩
  | r :: rs, h => by
    obtain ⟨hr, hrs⟩ : IsProper r ∧ AllProper rs := h
    obtain ⟨b, hb, hholds⟩ := exists_eval_iff_holds hr
    rw [evalAny, hb, SomeHolds, ← hholds]
    cases b with
    | true => exact ⟨true, rfl, by simp⟩
    | false =>
      obtain ⟨c, hc, hrest⟩ := exists_evalAny_iff_someHolds hrs
      exact ⟨c, hc, by simp [hrest]⟩

end

end

/-! ## With some facts -/

/-- Whatever is known at first is known in the same way later on. -/
structure Facts.Within (facts more : Facts) : Prop where
  running : ∀ v, facts.running = some v → more.running = some v
  mods : ∀ names, facts.mods = some names → more.mods = some names

/-- A version can be added to the facts. -/
theorem Facts.within_running (running : Version) (mods : Option (List String)) :
    Facts.Within ⟨none, mods⟩ ⟨some running, mods⟩ := ⟨nofun, fun _ => id⟩

/-- The installed mods can be added to the facts. -/
theorem Facts.within_mods (running : Option Version) (mods : List String) :
    Facts.Within ⟨running, none⟩ ⟨running, some mods⟩ := ⟨fun _ => id, nofun⟩

section

variable {facts more : Facts}

mutual

/-- An answer stays when more is known. -/
theorem eval_of_within (h : facts.Within more) : ∀ {r : Requirement} {b : Bool},
    eval facts r = .ok b → eval more r = .ok b
  | .allOf groups, b, hb => by
    rw [eval] at hb ⊢
    exact evalAll_of_within h hb
  | .anyOf terms, b, hb => by
    rw [eval] at hb ⊢
    exact evalAny_of_within h hb
  | .negation operand, b, hb => by
    rw [eval] at hb ⊢
    cases hoperand : eval facts operand with
    | error fault => simp [hoperand, Except.map] at hb
    | ok c =>
      rw [eval_of_within h hoperand]
      rwa [hoperand] at hb
  | .version term, b, hb => by
    -- A term that has an answer has been compared with a version that is known.
    cases hrunning : facts.running with
    | none => simp [eval, hrunning] at hb
    | some v =>
      simp only [eval, hrunning] at hb
      simp only [eval, h.running v hrunning, hb]
  | .versus kind, b, hb => by simp [eval] at hb
  | .mod name, b, hb => by
    cases hmods : facts.mods with
    | none => simp [eval, hmods] at hb
    | some names =>
      simp only [eval, hmods] at hb
      simp only [eval, h.mods names hmods, hb]
  | .foreign kind, b, hb => by simp [eval] at hb

/-- So does that of a conjunction. -/
private theorem evalAll_of_within (h : facts.Within more) : ∀ {rs : List Requirement} {b : Bool},
    evalAll facts rs = .ok b → evalAll more rs = .ok b
  | [], b, hb => by
    rw [evalAll] at hb ⊢
    exact hb
  | r :: rs, b, hb => by
    rw [evalAll] at hb ⊢
    cases hr : eval facts r with
    | error fault => simp [hr] at hb
    | ok c =>
      rw [eval_of_within h hr]
      rw [hr] at hb
      -- What the first group leaves to the others it leaves to them again.
      cases c with
      | false => exact hb
      | true => exact evalAll_of_within h hb

/-- So does that of a disjunction. -/
private theorem evalAny_of_within (h : facts.Within more) : ∀ {rs : List Requirement} {b : Bool},
    evalAny facts rs = .ok b → evalAny more rs = .ok b
  | [], b, hb => by
    rw [evalAny] at hb ⊢
    exact hb
  | r :: rs, b, hb => by
    rw [evalAny] at hb ⊢
    cases hr : eval facts r with
    | error fault => simp [hr] at hb
    | ok c =>
      rw [eval_of_within h hr]
      rw [hr] at hb
      cases c with
      | true => exact hb
      | false => exact evalAny_of_within h hb

end

end

/-- Whichever facts an answer was found with, it is what the requirement says. -/
theorem eval_iff_holds {facts : Facts} (h : facts.Within ⟨some running, some mods⟩)
    {r : Requirement} (hr : IsProper r) {b : Bool} (hb : eval facts r = .ok b) :
    b = true ↔ Holds running mods r := by
  obtain ⟨c, hc, hholds⟩ := exists_eval_iff_holds running mods hr
  have hsame : Except.ok b = (Except.ok c : Except EvalFault Bool) :=
    (eval_of_within h hb).symm.trans hc
  rw [Except.ok.inj hsame, hholds]

/-- What texts are read as holds no data of another kind when their atoms do not. -/
theorem isProper_of_isFlat {isAtom : Requirement → Prop} (hatom : ∀ r, isAtom r → IsProper r)
    {r : Requirement} (h : IsFlat isAtom r) : IsProper r := by
  obtain ⟨groups, -, rfl, hterms⟩ := h
  rw [IsProper, allProper_iff]
  intro group hgroup
  obtain ⟨terms, hmem, rfl⟩ := List.mem_map.mp hgroup
  rw [IsProper, allProper_iff]
  intro t ht
  obtain hlit | ⟨operand, hoperand, rfl⟩ := hterms terms hmem t ht
  · exact hatom t hlit
  · exact hatom operand hoperand

/-! ## In another order -/

/-- The same requirement with groups and terms in another order, somewhere or everywhere in it. -/
inductive Reordered : Requirement → Requirement → Prop
  | groups {gs hs : List Requirement} : gs.Perm hs → Reordered (.allOf gs) (.allOf hs)
  | terms {ts us : List Requirement} : ts.Perm us → Reordered (.anyOf ts) (.anyOf us)
  | inGroup {r s : Requirement} (front back : List Requirement) : Reordered r s →
      Reordered (.allOf (front ++ r :: back)) (.allOf (front ++ s :: back))
  | inTerm {r s : Requirement} (front back : List Requirement) : Reordered r s →
      Reordered (.anyOf (front ++ r :: back)) (.anyOf (front ++ s :: back))
  | inOperand {r s : Requirement} : Reordered r s → Reordered (.negation r) (.negation s)
  | trans {r s t : Requirement} : Reordered r s → Reordered s t → Reordered r t

variable {r s : Requirement}

/-- In another order a requirement holds for the same facts. -/
theorem Reordered.holds_iff (h : Reordered r s) :
    Holds running mods r ↔ Holds running mods s := by
  induction h with
  | groups hperm =>
    rw [Holds, Holds, allHold_iff, allHold_iff]
    exact forall_congr' fun r => by rw [hperm.mem_iff]
  | terms hperm =>
    rw [Holds, Holds, someHolds_iff, someHolds_iff]
    exact exists_congr fun r => by rw [hperm.mem_iff]
  | inGroup front back _ ih =>
    simp only [Holds, allHold_iff, List.forall_mem_append, List.forall_mem_cons, ih]
  | inTerm front back _ ih =>
    simp only [Holds, someHolds_iff, List.mem_append, List.mem_cons, or_and_right, exists_or,
      exists_eq_left, ih]
  | inOperand _ ih => rw [Holds, Holds, ih]
  | trans _ _ ih ih' => exact ih.trans ih'

/-- In another order a requirement is as proper. -/
private theorem Reordered.isProper_iff (h : Reordered r s) : IsProper r ↔ IsProper s := by
  induction h with
  | groups hperm | terms hperm =>
    rw [IsProper, IsProper, allProper_iff, allProper_iff]
    exact forall_congr' fun r => by rw [hperm.mem_iff]
  | inGroup front back _ ih | inTerm front back _ ih =>
    simp only [IsProper, allProper_iff, List.forall_mem_append, List.forall_mem_cons, ih]
  | inOperand _ ih => rw [IsProper, IsProper, ih]
  | trans _ _ ih ih' => exact ih.trans ih'

/-- With both facts the order of groups and terms does not matter. -/
theorem Reordered.eval_eq (h : Reordered r s) (hr : IsProper r) :
    eval ⟨some running, some mods⟩ s = eval ⟨some running, some mods⟩ r := by
  obtain ⟨b, hb, hholds⟩ := exists_eval_iff_holds running mods hr
  obtain ⟨c, hc, hholds'⟩ := exists_eval_iff_holds running mods (h.isProper_iff.mp hr)
  have hsame : c = b := by
    rw [Bool.eq_iff_iff, hholds, hholds', h.holds_iff]
  rw [hb, hc, hsame]

/-- An answer that is found without the running version is the answer for every version, and one
that is found without the installed mods is the answer for every list of mods. With both facts there
is an answer unless there is data of another kind in the requirement, and it is what the requirement
says: all of the groups, any of the terms, not the operand, the comparison with the bound, the mod
among the installed ones. The order of groups and terms does not matter for it. -/
theorem eval_keeps_answers (r : Requirement) :
    (∀ mods b, eval ⟨none, mods⟩ r = .ok b →
      ∀ running, eval ⟨some running, mods⟩ r = .ok b) ∧
    (∀ running b, eval ⟨running, none⟩ r = .ok b →
      ∀ mods, eval ⟨running, some mods⟩ r = .ok b) ∧
    (IsProper r → ∀ running mods,
      (∃ b, eval ⟨some running, some mods⟩ r = .ok b ∧ (b = true ↔ Holds running mods r)) ∧
      ∀ s, Reordered r s →
        eval ⟨some running, some mods⟩ s = eval ⟨some running, some mods⟩ r) := by
  refine ⟨fun mods b hb running => ?_, fun running b hb mods => ?_, fun hr running mods =>
    ⟨exists_eval_iff_holds running mods hr, fun s hs => hs.eval_eq hr⟩⟩
  · exact eval_of_within (Facts.within_running running mods) hb
  · exact eval_of_within (Facts.within_mods running mods) hb

/-- A mod that is installed decides without the version, and a version that is new enough decides
without the mods, where it comes first. With both facts either order will do. -/
theorem eval_keeps_answers_either_first :
    let modFirst : Requirement := .anyOf [.mod "RO", .version ⟨.greater, .minor 1 8⟩]
    let versionFirst : Requirement := .anyOf [.version ⟨.greater, .minor 1 8⟩, .mod "RO"]
    IsProper modFirst ∧ Reordered modFirst versionFirst ∧
      eval ⟨none, some ["ro"]⟩ modFirst = .ok true ∧
      eval ⟨some (.full 1 8 1), some ["ro"]⟩ modFirst = .ok true ∧
      eval ⟨some (.full 1 9 0), none⟩ versionFirst = .ok true ∧
      eval ⟨some (.full 1 9 0), some []⟩ versionFirst = .ok true ∧
      eval ⟨some (.full 1 9 0), some []⟩ modFirst = .ok true := by
  intro modFirst versionFirst
  have hproper : IsProper modFirst := ⟨trivial, trivial, trivial⟩
  have horder : Reordered modFirst versionFirst := .terms (.swap _ _ _)
  have hmod : eval ⟨none, some ["ro"]⟩ modFirst = .ok true := by decide
  have hversion : eval ⟨some (.full 1 9 0), none⟩ versionFirst = .ok true := by decide
  obtain ⟨hrunning, -, hboth⟩ := eval_keeps_answers modFirst
  obtain ⟨-, hmods, -⟩ := eval_keeps_answers versionFirst
  have hlater := hmods _ _ hversion []
  refine ⟨hproper, horder, hmod, hrunning _ _ hmod _, hversion, hlater, ?_⟩
  rw [← (hboth hproper (.full 1 9 0) []).2 versionFirst horder]
  exact hlater

end Requirement

end VersionGate

import VersionGate.Requirement.Eval

/-!
# The bounds in a requirement

A requirement sees the running version only where it is compared with a bound that is written in the
requirement, and of the difference a comparator sees only the sign. So two running versions that lie
on the same side of every bound get the same answer, and the same fault where there is no answer,
whatever the rest of the requirement is made of.

## Key results

- `Comparator.accepts_sign`: a comparator sees only the sign of a difference
- `eval_congr`: the answer depends on the running version through the bounds only
- `check_congr`: so does the answer to a text
- `Version.sameSide_of_incomplete`: a bound that is not complete does not see the revision
-/

namespace VersionGate

/-- A comparator sees only the sign of a difference. -/
theorem Comparator.accepts_sign (comparator : Comparator) (difference : Int) :
    comparator.accepts difference.sign = comparator.accepts difference := by
  rw [Bool.eq_iff_iff]
  cases comparator <;> simp [accepts, Int.sign_eq_zero_iff_zero, Int.sign_pos_iff,
    Int.sign_nonneg_iff, Int.sign_neg_iff, Int.sign_nonpos_iff]

/-- Two versions lie on the same side of a bound: both below, both within or both above. -/
def Version.SameSide (v w bound : Version) : Prop :=
  (v.compare bound).sign = (w.compare bound).sign

instance (v w bound : Version) : Decidable (v.SameSide w bound) :=
  inferInstanceAs (Decidable ((v.compare bound).sign = (w.compare bound).sign))

/-- A bound that leaves the revision open is on the same side of versions that differ in nothing
else. -/
theorem Version.sameSide_of_incomplete {bound : Version} (h : bound.isComplete = false)
    (major minor r s : Nat) :
    Version.SameSide (.full major minor r) (.full major minor s) bound := by
  cases bound with
  | major a => rfl
  | minor a b => rfl
  | full a b c => contradiction

/-- A term says the same of versions on one side of its bound. -/
private theorem Term.holds_congr {t : Term} {v w : Version} (h : v.SameSide w t.bound) :
    t.holds v = t.holds w := by
  rw [holds, holds, ← Comparator.accepts_sign, ← Comparator.accepts_sign _ (w.compare t.bound), h]

namespace Requirement

mutual

/-- The bounds that a requirement compares the running version with. -/
def bounds : Requirement → List Version
  | .allOf parts | .anyOf parts => boundsOfAll parts
  | .negation operand => bounds operand
  | .version term => [term.bound]
  | .versus _ | .mod _ | .foreign _ => []

/-- The bounds in some requirements. -/
def boundsOfAll : List Requirement → List Version
  | [] => []
  | r :: rs => bounds r ++ boundsOfAll rs

end

variable {v w : Version} (mods : Option (List String))

mutual

/-- The answer depends on the running version only through the side of the bounds that it is on. -/
theorem eval_congr :
    ∀ (r : Requirement), (∀ bound ∈ bounds r, v.SameSide w bound) →
      eval ⟨some v, mods⟩ r = eval ⟨some w, mods⟩ r
  | .allOf groups, h => by
    rw [bounds] at h
    rw [eval, eval, evalAll_congr groups h]
  | .anyOf terms, h => by
    rw [bounds] at h
    rw [eval, eval, evalAny_congr terms h]
  | .negation operand, h => by
    rw [bounds] at h
    rw [eval, eval, eval_congr operand h]
  | .version term, h => by
    have hbound : v.SameSide w term.bound := h term.bound (by simp [bounds])
    simp only [eval, Term.holds_congr hbound]
  -- Only whether there is a running version matters here, and there is one on both sides.
  | .versus kind, _ => by simp only [eval, Option.isNone_some]
  | .mod name, _ => by simp only [eval]
  | .foreign kind, _ => by simp only [eval]

/-- So does that of a conjunction. -/
private theorem evalAll_congr :
    ∀ (rs : List Requirement), (∀ bound ∈ boundsOfAll rs, v.SameSide w bound) →
      evalAll ⟨some v, mods⟩ rs = evalAll ⟨some w, mods⟩ rs
  | [], _ => by simp only [evalAll]
  | r :: rs, h => by
    rw [boundsOfAll, List.forall_mem_append] at h
    simp only [evalAll, eval_congr r h.1, evalAll_congr rs h.2]

/-- So does that of a disjunction. -/
private theorem evalAny_congr :
    ∀ (rs : List Requirement), (∀ bound ∈ boundsOfAll rs, v.SameSide w bound) →
      evalAny ⟨some v, mods⟩ rs = evalAny ⟨some w, mods⟩ rs
  | [], _ => by simp only [evalAny]
  | r :: rs, h => by
    rw [boundsOfAll, List.forall_mem_append] at h
    simp only [evalAny, eval_congr r h.1, evalAny_congr rs h.2]

end

/-- The bounds in a text; one that cannot be read has none. -/
def textBounds (text : Option String) : List Version :=
  match read text with
  | .ok r => bounds r
  | .error _ => []

/-- What checking a text comes to depends on the running version only through the bounds in it. -/
theorem check_congr {text : Option String}
    (h : ∀ bound ∈ textBounds text, v.SameSide w bound) : check v text = check w text := by
  rw [textBounds] at h
  rw [check, check]
  cases hread : read text with
  | error fault => rfl
  | ok r =>
    rw [hread] at h
    rw [evalRead, evalRead, eval_congr none r h]

end Requirement

end VersionGate

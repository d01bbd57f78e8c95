import VersionGate.Requirement.Token

/-!
# The tokens of a text, run by run

A text is a run of characters that are no separators, or such a run with a separator and another
text behind it (`run_induction`). A run that is not empty is one atom, so scanning follows this
shape.

## Key results

- `separator?_eq_some_iff`, `separator?_eq_none_iff`: which characters are separators
- `scanFrom_append_cons`: the tokens of a run, a separator and the text behind it
-/

namespace VersionGate.Requirement

/-- A text without separators. -/
def IsRun (cs : List Char) : Prop := ∀ c ∈ cs, separator? c = none

/-- Every text is a run, or a run with a separator and another text behind it. -/
theorem run_induction {motive : List Char → Prop}
    (run : ∀ w, IsRun w → motive w)
    (cut : ∀ w s kind cs, IsRun w → separator? s = some kind → motive cs → motive (w ++ s :: cs))
    (cs : List Char) : motive cs := by
  -- The run that the text starts with grows until a separator comes.
  suffices ∀ w, IsRun w → motive (w ++ cs) from this [] (by simp [IsRun])
  induction cs with
  | nil =>
    intro w hw
    rw [List.append_nil]
    exact run w hw
  | cons c cs ih =>
    intro w hw
    cases hc : separator? c with
    | some kind => exact cut w c kind cs hw hc (ih [] (by simp [IsRun]))
    | none =>
      have hwc : IsRun (w ++ [c]) := by
        intro d hd
        rcases List.mem_append.mp hd with hd | hd
        · exact hw d hd
        · rwa [List.mem_singleton.mp hd]
      have := ih (w ++ [c]) hwc
      rwa [List.append_assoc] at this

/-- A comma and an ampersand separate groups, and a bar terms. -/
theorem separator?_eq_some_iff {c : Char} {kind : TokenKind} :
    separator? c = some kind ↔ kind = .and ∧ (c = ',' ∨ c = '&') ∨ kind = .or ∧ c = '|' := by
  simp only [separator?, Bool.or_eq_true, decide_eq_true_eq]
  split
  · next h => rcases h with rfl | rfl <;> simp [eq_comm]
  · next h => split <;> simp_all [eq_comm]

/-- All other characters are in atoms. -/
theorem separator?_eq_none_iff {c : Char} : separator? c = none ↔ c ≠ ',' ∧ c ≠ '&' ∧ c ≠ '|' := by
  simp only [separator?, Bool.or_eq_true, decide_eq_true_eq]
  split
  · next h => rcases h with rfl | rfl <;> simp
  · next h => split <;> simp_all

/-- A separator is no atom. -/
theorem ne_atom_of_separator? {c : Char} {kind : TokenKind} (h : separator? c = some kind) :
    kind ≠ .atom := by
  rcases separator?_eq_some_iff.mp h with ⟨rfl, -⟩ | ⟨rfl, -⟩ <;> simp

namespace Token

/-- The tokens of a run: one atom, unless the run is empty. -/
def ofRun (w : List Char) (position : Nat) : List Token :=
  if w = [] then [] else [⟨.atom, w, position⟩]

/-- A separator is a token of its own. -/
theorem scanFrom_cons_of_separator? {s : Char} {kind : TokenKind} (h : separator? s = some kind)
    (position : Nat) (cs : List Char) :
    scanFrom position (s :: cs) = ⟨kind, [s], position⟩ :: scanFrom (position + 1) cs := by
  simp only [scanFrom, h]

/-- A run is scanned as a whole, as long as no character that could go on with it follows. -/
theorem scanFrom_run_append {w r : List Char} (hw : IsRun w)
    (hr : ∀ c ∈ r.head?, separator? c ≠ none) (position : Nat) :
    scanFrom position (w ++ r) = ofRun w position ++ scanFrom (position + w.length) r := by
  induction w generalizing position with
  | nil => rfl
  | cons c w ih =>
    have hc : separator? c = none := hw c (by simp)
    have hw' : IsRun w := fun d hd => hw d (by simp [hd])
    have hlen : position + 1 + w.length = position + (c :: w).length := by
      simp only [List.length_cons]
      omega
    simp only [List.cons_append, scanFrom, hc, ih hw', hlen]
    cases w with
    | cons d w => rfl
    | nil =>
      -- The run is this one character: what follows is nothing or a separator.
      cases r with
      | nil => rfl
      | cons s r =>
        obtain ⟨kind, hs⟩ := Option.ne_none_iff_exists'.mp (hr s (by simp))
        simp [ofRun, scanFrom_cons_of_separator? hs, consAtom, ne_atom_of_separator? hs]

/-- The tokens of a run. -/
theorem scanFrom_run {w : List Char} (hw : IsRun w) (position : Nat) :
    scanFrom position w = ofRun w position := by
  have h := scanFrom_run_append hw (r := []) (by simp) position
  rwa [List.append_nil, scanFrom, List.append_nil] at h

/-- The tokens of a run, a separator and the text behind it. -/
theorem scanFrom_append_cons {w : List Char} {s : Char} {kind : TokenKind} (hw : IsRun w)
    (hs : separator? s = some kind) (cs : List Char) (position : Nat) :
    scanFrom position (w ++ s :: cs) =
      ofRun w position ++
        ⟨kind, [s], position + w.length⟩ :: scanFrom (position + w.length + 1) cs := by
  rw [scanFrom_run_append hw (by simp [hs]), scanFrom_cons_of_separator? hs]

end Token

end VersionGate.Requirement

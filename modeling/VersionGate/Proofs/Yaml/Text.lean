import VersionGate.Proofs.Letter
import VersionGate.Proofs.Yaml.DoubleQuoted
import VersionGate.Proofs.Yaml.Plain
import VersionGate.Proofs.Yaml.SingleQuoted

/-!
# What comes back of a text

How a text is written decides what comes back of it when it is read again: all of it if it is plain,
and between quotes all of it apart from the exceptions that `singleBack` and `escapedBack` make.

## Key results

- `back`, `Survives`: what comes back, and whether that is the text
- `back_eq_self_iff`: a text that is spelled from characters comes back exactly if it survives
-/

namespace VersionGate.Yaml.Scalar

/-! ## Styles -/

variable {cs : List Char}

/-- A plain text is not empty, and may be plain. -/
theorem of_style_plain (h : style cs = .plain) : cs ≠ [] ∧ allowsPlain cs = true := by
  unfold style at h
  split at h
  · next hplain =>
    simp only [Bool.and_eq_true, decide_eq_true_eq] at hplain
    refine ⟨?_, hplain.2⟩
    rintro rfl
    exact absurd hplain.1 (by decide)
  · split at h <;> exact absurd h (by decide)

/-- A plain text is resolved as a text. -/
theorem resolve_of_style_plain (h : style cs = .plain) : Tag.resolve cs = .text := by
  unfold style at h
  split at h
  · next hplain =>
    simp only [Bool.and_eq_true, decide_eq_true_eq] at hplain
    exact hplain.1
  · split at h <;> exact absurd h (by decide)

/-- A text in single quotes may be in them. -/
theorem of_style_singleQuoted (h : style cs = .singleQuoted) : allowsSingleQuotes cs = true := by
  unfold style at h
  split at h
  · exact absurd h (by decide)
  · split at h
    · next hsingle => exact hsingle
    · exact absurd h (by decide)

/-- A text that may be plain is without the mark. -/
theorem mark_not_mem_of_allowsPlain (h : allowsPlain cs = true) : Text.mark ∉ cs :=
  mark_not_mem_of_allowsSingleQuotes (allowsSingleQuotes_of_allowsPlain h)

/-! ## What comes back -/

/-- What comes back of a text that is written in lines that start with `indent` blanks. -/
def back (indent : Nat) (cs : List Char) : List Char :=
  match style cs with
  | .plain => cs
  | .singleQuoted => singleBack cs
  | .doubleQuoted => (escapedBack indent true (Text.letters cs)).flatMap Text.Letter.spell

/-- Whether a text comes back as it was. Between single quotes it must not hold the next-line
character. Between double quotes, where lines start further in than `lineWidth`, behind an escape
other than the first letter there must not be a space other than the last. -/
def Survives (indent : Nat) (cs : List Char) : Prop :=
  match style cs with
  | .plain => True
  | .singleQuoted => nextLine ∉ cs
  | .doubleQuoted => lineWidth ≤ indent → hasEscapedGap (Text.letters cs).tail = false

/-- Letters can be told apart by how they are spelled. -/
private theorem flatMap_spell_inj {ls ls' : List Text.Letter}
    (h : ls.flatMap Text.Letter.spell = ls'.flatMap Text.Letter.spell) : ls = ls' := by
  rw [← Text.letters_spell ls, h, Text.letters_spell]

/-- A text that is spelled from characters comes back exactly if it survives. -/
theorem back_eq_self_iff (indent : Nat) (chars : List Char) :
    back indent (Text.spell chars) = Text.spell chars ↔ Survives indent (Text.spell chars) := by
  unfold back Survives
  cases hstyle : style (Text.spell chars) with
  | plain => simp
  | singleQuoted => exact singleBack_eq_self_iff (of_style_singleQuoted hstyle)
  | doubleQuoted =>
    rw [← escapedBack_eq_self_iff]
    constructor
    · intro h
      exact flatMap_spell_inj (h.trans (Text.spell_letters chars).symm)
    · intro h
      dsimp only
      rw [h, Text.spell_letters]

/-- A line further in than the greatest width is broken twice between an escape and a space, and the
two signs for that read as a backslash. -/
example : String.ofList (back lineWidth "a\t b c".toList) = "a\t\\  b c" := by decide +kernel

end VersionGate.Yaml.Scalar

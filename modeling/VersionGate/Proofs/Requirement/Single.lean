import VersionGate.Proofs.Requirement.Evaluation
import VersionGate.Proofs.Term.Text

/-!
# Requirements of one term

A comparator in front of a version is a requirement of one term, with an exclamation mark in front
of both or not. A version may be written with leading zeros, so it is not known by the texts that
versions are written with but by the form of its text: one to three numerals with points between
them, none too long to be read.

Below a bound and not below it, above a bound and not above it, a term and its negation: each time,
one of the two requirements holds and the other one does not, `Opposites`.

## Key results

- `read_term`, `read_negatedTerm`: reading a requirement of one term
- `Version.exists_readChars?_of_isText`: a version is read from its text
- `Opposites.exists_check`: of two opposites, one holds
-/

namespace VersionGate

/-! ## The texts of versions -/

namespace Version

/-- The text of a version: one to three numerals with points between them, none too long. -/
def IsText (b : String) : Prop :=
  let numerals := Text.pieces (· == '.') b.toList
  numerals.length ≤ 3 ∧
    ∀ numeral ∈ numerals, isNumeral numeral = true ∧ numeral.length ≤ Decimal.maxDigits

instance (b : String) : Decidable (IsText b) :=
  inferInstanceAs (Decidable (_ ∧ ∀ numeral ∈ Text.pieces (· == '.') b.toList, _))

/-- What has the form of a version has nothing in it but digits and points, a digit first. -/
private theorem chars_of_readChars? {cs : List Char} {bound : Except ReadFault Version}
    (h : readChars? cs = some bound) :
    (∀ c ∈ cs, c.isDigit = true ∨ c = '.') ∧ ∃ d ds, cs = d :: ds ∧ d.isDigit = true := by
  rw [readChars?] at h
  split at h
  · next hnumerals =>
    rw [List.all_eq_true] at hnumerals
    have hchars : ∀ c ∈ cs, c.isDigit = true ∨ c = '.' := by
      intro c hc
      by_cases hpoint : c = '.'
      · exact .inr hpoint
      · obtain ⟨numeral, hnumeral, hmem⟩ :=
          Text.exists_mem_pieces (p := (· == '.')) hc (by simpa using hpoint)
        exact .inl ((isNumeral_iff.mp (hnumerals numeral hnumeral)).2 c hmem)
    refine ⟨hchars, ?_⟩
    cases cs with
    | nil =>
      have hfirst := hnumerals [] (by simp [Text.pieces])
      simp [isNumeral] at hfirst
    | cons d ds =>
      refine ⟨d, ds, rfl, (hchars d (by simp)).resolve_right ?_⟩
      rintro rfl
      -- A point in front leaves an empty numeral.
      have hfirst := hnumerals [] (by simp [Text.pieces])
      simp [isNumeral] at hfirst
  · contradiction

/-- One numeral has the form of a version, also one that is too long to be read. -/
theorem readChars?_of_isNumeral {digits : List Char} (h : isNumeral digits = true) :
    readChars? digits = some ((readNumeral digits).map .major) := by
  have hpoint : ∀ c ∈ digits, (c == '.') = false :=
    fun c hc => ne_point_of_isDigit ((isNumeral_iff.mp h).2 c hc)
  rw [readChars?, Text.pieces_of_none hpoint]
  simp only [List.all_cons, List.all_nil, Bool.and_true, h, if_true, ofNumerals?]
  cases readNumeral digits <;> rfl

/-- A version is read from its text. -/
private theorem exists_readChars?_of_isText {b : String} (h : IsText b) :
    ∃ v, readChars? b.toList = some (.ok v) := by
  obtain ⟨hlength, hnumerals⟩ := h
  have hall : (Text.pieces (· == '.') b.toList).all isNumeral = true :=
    List.all_eq_true.mpr fun numeral hnumeral => (hnumerals numeral hnumeral).1
  obtain ⟨bound, hbound⟩ := exists_ofNumerals?_iff.mpr ⟨Text.pieces_ne_nil _ b.toList, hlength⟩
  have hnumbers := map_numbers_of_ofNumerals? hbound
  rw [mapM_readNumeral fun numeral hnumeral => (hnumerals numeral hnumeral).2] at hnumbers
  simp only [readChars?, hall, if_true, hbound]
  cases bound with
  | error fault => contradiction
  | ok v => exact ⟨v, rfl⟩

end Version

/-! ## Reading one term -/

namespace Requirement

variable {b : String} {bound : Except ReadFault Version}

/-- A character of a term is a digit, a point, or a character of a comparator. -/
private theorem mem_termText (h : Version.readChars? b.toList = some bound)
    (comparator : Comparator) {c : Char} (hc : c ∈ (comparator.symbol ++ b).toList) :
    c.isDigit = true ∨ c ∈ ['.', '<', '>', '≈'] := by
  rw [String.toList_append, List.mem_append] at hc
  rcases hc with hc | hc
  · have hsymbol : ∀ d ∈ comparator.symbol.toList, d ∈ ['.', '<', '>', '≈'] := by
      cases comparator <;> simp [Comparator.symbol]
    exact .inr (hsymbol c hc)
  · rcases (Version.chars_of_readChars? h).1 c hc with hdigit | rfl
    · exact .inl hdigit
    · exact .inr (by simp)

/-- A digit is no separator. -/
private theorem separator?_of_isDigit {c : Char} (h : c.isDigit = true) : separator? c = none := by
  have hcomma : c ≠ ',' := by rintro rfl; contradiction
  have hand : c ≠ '&' := by rintro rfl; contradiction
  have hbar : c ≠ '|' := by rintro rfl; contradiction
  exact separator?_eq_none_iff.mpr ⟨hcomma, hand, hbar⟩

/-- There are no separators in a term. -/
private theorem isRun_termText (h : Version.readChars? b.toList = some bound)
    (comparator : Comparator) :
    IsRun (comparator.symbol ++ b).toList := by
  intro c hc
  rcases mem_termText h comparator hc with hdigit | hc
  · exact separator?_of_isDigit hdigit
  · simp only [List.mem_cons, List.not_mem_nil, or_false] at hc
    rcases hc with rfl | rfl | rfl | rfl <;> rfl

/-- A comparator in front of what has the form of a version is a term, unless a numeral is too
long. -/
private theorem versionAtom_termText (h : Version.readChars? b.toList = some bound)
    (comparator : Comparator) :
    versionAtom (comparator.symbol ++ b).toList = bound.map fun v => .version ⟨comparator, v⟩ := by
  obtain ⟨-, d, ds, hb, hdigit⟩ := Version.chars_of_readChars? h
  have hsplit := comparator.split_symbol hdigit ds
  rw [← hb] at hsplit
  rw [versionAtom, Term.readChars, String.toList_append, hsplit]
  simp only [h]
  cases bound <;> rfl

/-- There is no exclamation mark in front of a term. -/
private theorem isNegated_termText (h : Version.readChars? b.toList = some bound)
    (comparator : Comparator) : isNegated (comparator.symbol ++ b).toList = false := by
  rw [isNegated]
  cases hfirst : (comparator.symbol ++ b).toList.head? with
  | none => rfl
  | some c =>
    have hne : c ≠ '!' := by
      rintro rfl
      rcases mem_termText h comparator (List.mem_of_head? hfirst) with hdigit | hc
      · contradiction
      · simp at hc
    simpa using hne

/-- The text of a term is not empty. -/
private theorem termText_ne_empty (h : Version.readChars? b.toList = some bound)
    (comparator : Comparator) : comparator.symbol ++ b ≠ "" := by
  obtain ⟨-, d, ds, hb, -⟩ := Version.chars_of_readChars? h
  intro hempty
  have hnil := congrArg String.toList hempty
  simp [hb] at hnil

/-- Reading a comparator in front of a version. -/
theorem read_term (h : Version.readChars? b.toList = some bound) (comparator : Comparator) :
    read (some (comparator.symbol ++ b)) =
      bound.map fun v => .allOf [.anyOf [.version ⟨comparator, v⟩]] := by
  have hneg := isNegated_termText h comparator
  rw [read, readWith_run versionAtom (isRun_termText h comparator)
    (termText_ne_empty h comparator), termOf, atomText, hneg]
  simp only [Bool.false_eq_true, if_false, versionAtom_termText h]
  cases bound <;> rfl

/-- Reading an exclamation mark, a comparator and a version. -/
theorem read_negatedTerm (h : Version.readChars? b.toList = some bound)
    (comparator : Comparator) :
    read (some ("!" ++ (comparator.symbol ++ b))) =
      bound.map fun v => .allOf [.anyOf [.negation (.version ⟨comparator, v⟩)]] := by
  have htext : ("!" ++ (comparator.symbol ++ b)).toList =
      '!' :: (comparator.symbol ++ b).toList := by
    rw [String.toList_append]
    rfl
  -- There is no separator in the text, so it is one run, and its exclamation mark stands in front.
  have hrun : IsRun ("!" ++ (comparator.symbol ++ b)).toList := by
    rw [htext]
    intro c hc
    rcases List.mem_cons.mp hc with rfl | hc
    · rfl
    · exact isRun_termText h comparator c hc
  have hne : "!" ++ (comparator.symbol ++ b) ≠ "" := by
    intro hempty
    rw [hempty] at htext
    contradiction
  have hneg : isNegated ('!' :: (comparator.symbol ++ b).toList) = true := rfl
  rw [read, readWith_run versionAtom hrun hne, htext, termOf, atomText, hneg]
  simp only [if_true, List.tail_cons, versionAtom_termText h]
  cases bound <;> rfl

/-- Checking a comparator in front of a version compares the running version with it. -/
theorem check_term {v : Version} (h : Version.readChars? b.toList = some (.ok v))
    (comparator : Comparator) (running : Version) :
    check running (comparator.symbol ++ b) = .ok (comparator.accepts (running.compare v)) := by
  rw [check, read_term h]
  show evalRead _ (.ok _) = _
  simp only [evalRead, eval, evalAll, evalAny, Term.holds]
  cases comparator.accepts (running.compare v) <;> rfl

/-- With an exclamation mark in front, the answer is the other one. -/
private theorem check_negatedTerm {v : Version} (h : Version.readChars? b.toList = some (.ok v))
    (comparator : Comparator) (running : Version) :
    check running ("!" ++ (comparator.symbol ++ b)) =
      .ok (!comparator.accepts (running.compare v)) := by
  rw [check, read_negatedTerm h]
  show evalRead _ (.ok _) = _
  simp only [evalRead, eval, evalAll, evalAny, Term.holds, Except.map]
  cases comparator.accepts (running.compare v) <;> rfl

/-! ## Opposite requirements -/

/-- Two requirements of one term that are opposites: below a bound and not below it, above a bound
and not above it, a term and its negation, each in either order. -/
inductive Opposites : String → String → Prop
  | less {b : String} (hb : Version.IsText b) : Opposites ("<" ++ b) (">≈" ++ b)
  | greater {b : String} (hb : Version.IsText b) : Opposites (">" ++ b) ("<≈" ++ b)
  | negated {b : String} (hb : Version.IsText b) (comparator : Comparator) :
    Opposites (comparator.symbol ++ b) ("!" ++ (comparator.symbol ++ b))
  | swap {r r' : String} (h : Opposites r r') : Opposites r' r

/-- At least is not less than. -/
private theorem accepts_greaterEquivalent (difference : Int) :
    Comparator.greaterEquivalent.accepts difference = !Comparator.less.accepts difference := by
  rw [Bool.eq_iff_iff]
  simp [Comparator.accepts]

/-- At most is not greater than. -/
private theorem accepts_lessEquivalent (difference : Int) :
    Comparator.lessEquivalent.accepts difference = !Comparator.greater.accepts difference := by
  rw [Bool.eq_iff_iff]
  simp [Comparator.accepts]

variable {r r' : String}

/-- For every version, one of two opposites holds and the other one does not. -/
theorem Opposites.exists_check (h : Opposites r r') (running : Version) :
    ∃ holds, check running r = .ok holds ∧ check running r' = .ok (!holds) := by
  -- Each pair has one bound, and what the one comparator accepts the other one does not.
  induction h with
  | less hb =>
    obtain ⟨v, hv⟩ := Version.exists_readChars?_of_isText hb
    refine ⟨_, check_term hv .less running, ?_⟩
    rw [← accepts_greaterEquivalent]
    exact check_term hv .greaterEquivalent running
  | greater hb =>
    obtain ⟨v, hv⟩ := Version.exists_readChars?_of_isText hb
    refine ⟨_, check_term hv .greater running, ?_⟩
    rw [← accepts_lessEquivalent]
    exact check_term hv .lessEquivalent running
  | negated hb comparator =>
    obtain ⟨v, hv⟩ := Version.exists_readChars?_of_isText hb
    exact ⟨_, check_term hv comparator running, check_negatedTerm hv comparator running⟩
  | swap _ ih =>
    obtain ⟨holds, hr, hr'⟩ := ih
    exact ⟨!holds, hr', by rw [hr, Bool.not_not]⟩

/-- There is no closing bracket in a term. -/
private theorem close_not_mem_termText (hb : Version.IsText b) (comparator : Comparator) :
    ']' ∉ (comparator.symbol ++ b).toList := by
  obtain ⟨v, hv⟩ := Version.exists_readChars?_of_isText hb
  intro hmem
  rcases mem_termText hv comparator hmem with hdigit | hc
  · contradiction
  · simp at hc

/-- There are no closing brackets in opposites. -/
theorem Opposites.close_not_mem (h : Opposites r r') : ']' ∉ r.toList ∧ ']' ∉ r'.toList := by
  induction h with
  | less hb =>
    exact ⟨close_not_mem_termText hb .less, close_not_mem_termText hb .greaterEquivalent⟩
  | greater hb =>
    exact ⟨close_not_mem_termText hb .greater, close_not_mem_termText hb .lessEquivalent⟩
  | negated hb comparator =>
    have hterm := close_not_mem_termText hb comparator
    refine ⟨hterm, ?_⟩
    rw [String.toList_append, List.mem_append, not_or]
    exact ⟨by decide, hterm⟩
  | swap _ ih => exact ih.symm

end Requirement

end VersionGate

import VersionGate.Proofs.Term
import VersionGate.Proofs.Term.Text
import VersionGate.Proofs.Version.Order

/-!
# Which texts are terms

The spelling of a term is one of the six comparators with one, two or three numerals behind it and
points between them. Nothing else is a term, and no text is spelled in two ways, since a comparator
ends in front of the first digit and a numeral in front of the next point. What a text is read as
follows from how it is spelled (`ReadsTo`): with no numeral too long, the term of that comparator
and those numbers; with one that is, its length; and without a spelling, the text as a malformed
term.

## Key results

- `Spelling.readChars_chars`: reading what has a spelling
- `Spelling.exists_of_readChars?`: what has the form of a version has a spelling
- `read_follows_spelling`: reading any text, and reading back what terms and versions are written as
-/

namespace VersionGate

/-- The symbol of a comparator stands for it alone. -/
private theorem Comparator.ofSymbol?_symbol (c : Comparator) :
    Comparator.ofSymbol? c.symbol = some c := by
  cases c <;> decide

namespace Term

/-- A comparator and one to three numerals behind it, each a row of at least one ASCII digit and as
long as it may be. -/
structure Spelling where
  comparator : Comparator
  numerals : List (List Char)
  isNumeral : ∀ digits ∈ numerals, Version.isNumeral digits = true
  numerals_ne_nil : numerals ≠ []
  length_numerals : numerals.length ≤ 3

namespace Spelling

/-- The text with a spelling: the comparator, and the numerals with points between them. -/
def chars (p : Spelling) : List Char :=
  p.comparator.symbol.toList ++ ['.'].intercalate p.numerals

/-- The version that is made of the numbers of a spelling, with all that is checked of them. -/
def bound (p : Spelling) : Except Version.Fault Version :=
  let part (i : Nat) : Option Int := p.numerals[i]?.map fun digits => Decimal.value digits
  Version.ofParts ((part 0).getD 0) (part 1) (part 2)

/-- The numbers of a spelling make a version. -/
private theorem exists_bound (p : Spelling) :
    ∃ v, p.bound = .ok v ∧ v.numbers = p.numerals.map Decimal.value := by
  obtain ⟨c, numerals, -, hne, hlength⟩ := p
  rcases numerals with _ | ⟨x, _ | ⟨y, _ | ⟨z, _ | ⟨w, rest⟩⟩⟩⟩
  · contradiction
  · exact ⟨.major (Decimal.value x), by simp [bound, Version.ofParts], rfl⟩
  · exact ⟨.minor (Decimal.value x) (Decimal.value y), by simp [bound, Version.ofParts], rfl⟩
  · exact ⟨.full (Decimal.value x) (Decimal.value y) (Decimal.value z),
      by simp [bound, Version.ofParts], rfl⟩
  · simp only [List.length_cons] at hlength
    omega

/-- A text with a spelling is cut in front of its first numeral. -/
private theorem split_chars (p : Spelling) :
    Comparator.split p.chars = (p.comparator, ['.'].intercalate p.numerals) := by
  obtain ⟨d, ds, hnumerals, hdigit⟩ :=
    Version.exists_numerals_eq_cons p.numerals_ne_nil p.isNumeral
  rw [chars, hnumerals, p.comparator.split_symbol hdigit]

/-- Reading a text with a spelling reads its numerals, one after the other. -/
private theorem readChars_chars (p : Spelling) :
    ∃ bound : Except ReadFault Version, readChars p.chars = bound.map (⟨p.comparator, ·⟩) ∧
      bound.map Version.numbers = p.numerals.mapM Version.readNumeral := by
  obtain ⟨bound, hbound⟩ :=
    Version.exists_ofNumerals?_iff.mpr ⟨p.numerals_ne_nil, p.length_numerals⟩
  have hall : p.numerals.all Version.isNumeral = true := List.all_eq_true.mpr p.isNumeral
  have hversion : Version.readChars? (['.'].intercalate p.numerals) = some bound := by
    simp only [Version.readChars?, Version.pieces_numerals p.numerals_ne_nil p.isNumeral, hall,
      if_true, hbound]
  refine ⟨bound, ?_, Version.map_numbers_of_ofNumerals? hbound⟩
  simp only [readChars, p.split_chars, hversion]

/-- What has the form of a version behind its comparator has a spelling. -/
private theorem exists_of_readChars? {cs : List Char} {bound : Except ReadFault Version}
    (h : Version.readChars? (Comparator.split cs).2 = some bound) :
    ∃ p : Spelling, p.chars = cs := by
  rw [Version.readChars?] at h
  split at h
  · next hall =>
    obtain ⟨hne, hlength⟩ := Version.exists_ofNumerals?_iff.mp ⟨bound, h⟩
    refine ⟨⟨(Comparator.split cs).1, Text.pieces (· == '.') (Comparator.split cs).2,
      List.all_eq_true.mp hall, hne, hlength⟩, ?_⟩
    rw [chars, Text.intercalate_pieces]
    exact Comparator.symbol_append_split cs
  · contradiction

/-- No text has two spellings. -/
private theorem eq_of_chars_eq {p q : Spelling} (h : p.chars = q.chars) : p = q := by
  have hsplit := p.split_chars
  rw [h, q.split_chars, Prod.mk.injEq] at hsplit
  have hnumerals := Version.pieces_numerals p.numerals_ne_nil p.isNumeral
  rw [← hsplit.2, Version.pieces_numerals q.numerals_ne_nil q.isNumeral] at hnumerals
  cases p
  cases q
  simp only [mk.injEq]
  exact ⟨hsplit.1.symm, hnumerals.symm⟩

end Spelling

/-- What reading a text as a term comes to, by the spelling of the text. -/
inductive ReadsTo (s : String) : Except ReadFault Term → Prop
  /-- No numeral is too long. -/
  | term (p : Spelling) (hs : p.chars = s.toList)
      (hshort : ∀ digits ∈ p.numerals, digits.length ≤ Decimal.maxDigits) (v : Version)
      (hv : v.numbers = p.numerals.map Decimal.value) : ReadsTo s (.ok ⟨p.comparator, v⟩)
  /-- A numeral is too long, and those in front of it are not. -/
  | overlong (p : Spelling) (hs : p.chars = s.toList) (before : List (List Char))
      (digits : List Char) (after : List (List Char))
      (hnumerals : p.numerals = before ++ digits :: after)
      (hbefore : ∀ ds ∈ before, ds.length ≤ Decimal.maxDigits)
      (hlong : Decimal.maxDigits < digits.length) :
      ReadsTo s (.error (.tooLong ⟨some digits.length⟩))
  /-- The text has no spelling. -/
  | malformed (hs : ∀ p : Spelling, p.chars ≠ s.toList) :
      ReadsTo s (.error (.malformed (.term s)))

/-- Reading a text comes to what its spelling says. -/
theorem ReadsTo.read_eq {s : String} {outcome : Except ReadFault Term} (h : ReadsTo s outcome) :
    read (some s) = outcome := by
  rw [read]
  -- A text that spells a bound is read numeral by numeral, and the first that is too long is its
  -- fault.
  cases h with
  | term p hs hshort v hv =>
    obtain ⟨bound, hread, hnumbers⟩ := p.readChars_chars
    rw [Version.mapM_readNumeral hshort, ← hv] at hnumbers
    rw [← hs, hread]
    cases bound with
    | error fault => contradiction
    | ok w => rw [Version.numbers_injective (Except.ok.inj hnumbers), Except.map]
  | overlong p hs before digits after hnumerals hbefore hlong =>
    obtain ⟨bound, hread, hnumbers⟩ := p.readChars_chars
    have hfault : p.numerals.mapM Version.readNumeral =
        .error (.tooLong ⟨some digits.length⟩) := by
      rw [List.mapM_eq_error_iff]
      exact ⟨before, digits, after, hnumerals,
        fun ds hds => ⟨_, Version.readNumeral_of_length (hbefore ds hds)⟩,
        Version.readNumeral_eq_error_iff.mpr ⟨hlong, rfl⟩⟩
    rw [hfault] at hnumbers
    rw [← hs, hread]
    cases bound with
    | error fault => rw [Except.error.inj hnumbers, Except.map]
    | ok w => contradiction
  | malformed hs =>
    have hnone : Version.readChars? (Comparator.split s.toList).2 = none := by
      rw [Option.eq_none_iff_forall_ne_some]
      intro bound hbound
      obtain ⟨p, hp⟩ := Spelling.exists_of_readChars? hbound
      exact hs p hp
    simp only [readChars, hnone, String.ofList_toList]

/-- A text has a spelling without long numerals, one with a first long numeral, or none. -/
private theorem exists_readsTo (s : String) : ∃ outcome, ReadsTo s outcome := by
  by_cases hspelled : ∃ p : Spelling, p.chars = s.toList
  · obtain ⟨p, hs⟩ := hspelled
    -- Numerals are read from the left, so the first long one counts.
    cases hlong : p.numerals.find? (Decimal.maxDigits < ·.length) with
    | none =>
      obtain ⟨v, -, hv⟩ := p.exists_bound
      refine ⟨_, .term p hs (fun digits hdigits => ?_) v hv⟩
      simpa using List.find?_eq_none.mp hlong digits hdigits
    | some digits =>
      obtain ⟨hdigits, before, after, hnumerals, hbefore⟩ :=
        List.find?_eq_some_iff_append.mp hlong
      refine ⟨_, .overlong p hs before digits after hnumerals (fun ds hds => ?_) ?_⟩
      · simpa using hbefore ds hds
      · simpa using hdigits
  · exact ⟨_, .malformed fun p hp => hspelled ⟨p, hp⟩⟩

/-- Reading comes to what the spelling says and to nothing else. -/
private theorem readsTo_iff {s : String} {outcome : Except ReadFault Term} :
    ReadsTo s outcome ↔ read (some s) = outcome := by
  refine ⟨ReadsTo.read_eq, ?_⟩
  rintro rfl
  obtain ⟨outcome, houtcome⟩ := exists_readsTo s
  rwa [houtcome.read_eq]

/-- What a text is read as follows from its spelling, of which there is at most one: the term of its
comparator and its numbers, the length of the first numeral that is too long, or the text as no term
at all. With the comparator and the numbers of a spelling nothing else can go wrong. What terms and
versions with numerals that are not too long are written as is read as them. -/
theorem read_follows_spelling :
    (∀ s outcome, ReadsTo s outcome ↔ read (some s) = outcome) ∧
    (∀ p q : Spelling, p.chars = q.chars → p = q) ∧
    (∀ p : Spelling, Comparator.ofSymbol? p.comparator.symbol = some p.comparator ∧
      ∃ v, p.bound = .ok v ∧ v.numbers = p.numerals.map Decimal.value) ∧
    ∀ (c : Comparator) (b : Version), (∀ n ∈ b.numbers, n < 10 ^ Decimal.maxDigits) →
      read (some (c.symbol ++ b.text)) = .ok ⟨c, b⟩ ∧ Version.read false (some b.text) = .ok b :=
  ⟨fun _ _ => readsTo_iff, fun _ _ => Spelling.eq_of_chars_eq,
    fun p => ⟨p.comparator.ofSymbol?_symbol, p.exists_bound⟩,
    fun c _ hb => ⟨read_text (t := ⟨c, _⟩) hb, Version.read_text (by simp) hb⟩⟩

/-- A leading zero is read and not written. -/
theorem read_follows_spelling_leading_zero :
    read (some "<≈01.8") = .ok ⟨.lessEquivalent, .minor 1 8⟩ ∧
      (∀ n ∈ (Version.minor 1 8).numbers, n < 10 ^ Decimal.maxDigits) ∧
      read (some "<≈1.8") = .ok ⟨.lessEquivalent, .minor 1 8⟩ := by
  have hnumbers : ∀ n ∈ (Version.minor 1 8).numbers, n < 10 ^ Decimal.maxDigits := by
    decide +kernel
  have htext : Comparator.lessEquivalent.symbol ++ (Version.minor 1 8).text = "<≈1.8" := by
    decide +kernel
  obtain ⟨hread, -, -, hback⟩ := read_follows_spelling
  refine ⟨?_, hnumbers, htext ▸ (hback .lessEquivalent _ hnumbers).1⟩
  let p : Spelling := ⟨.lessEquivalent, [['0', '1'], ['8']], by decide, by decide, by decide⟩
  exact (hread _ _).mp (.term p (by decide) (by decide +kernel) _ (by decide))

example : read (some "1.8\n") = .error (.malformed (.term "1.8\n")) := by decide

end Term

end VersionGate

import VersionGate.CommandLine.Words
import VersionGate.Proofs.Letter

/-!
# What a command line means

A grammar of command lines, `Means`: which words stand for which options and arguments. Every option
may be given in each of its spellings, and options and arguments in any order. The reader agrees
with the grammar as long as the names of the options are told apart, `Apart`.

## Key results

- `readShort_of_means`, `readWord_of_means`: the options in one word
- `readWords_of_means`: what a command line means is what is read off it
-/

namespace VersionGate.CommandLine

open Text (Letter letters)

/-- Options that are told apart by their names: a long name is two dashes with something behind them
that has no equals sign in it, and a short one is no dash. -/
structure Apart (rules : List OptionRule) : Prop where
  long : ∀ r ∈ rules, rules.find? (·.long == r.long) = some r
  dashes : ∀ r ∈ rules, ['-', '-'] <+: r.long.toList ∧ r.long ≠ "--" ∧ '=' ∉ r.long.toList
  short : ∀ r ∈ rules, ∀ c ∈ r.short, c ≠ '-' ∧ c ≠ Text.mark ∧
    rules.find? (fun rule => rule.short.any (Letter.char · = .char c)) = some r

/-! ## The grammar -/

section

variable (rules : List OptionRule)

/-- What short options mean: those that are settled with their values, and the last one if the next
word is its value. -/
inductive MeansShort : List Char → List (OptionRule × String) → Option OptionRule → Prop
  | nothing : MeansShort [] [] none
  | flag {r : OptionRule} {c : Char} {cs : List Char} {options : List (OptionRule × String)}
      {waiting : Option OptionRule} (known : r ∈ rules) (name : c ∈ r.short)
      (flag : r.takesValue = false) (rest : MeansShort cs options waiting) :
      MeansShort (c :: cs) ((r, "") :: options) waiting
  | waiting {r : OptionRule} {c : Char} (known : r ∈ rules) (name : c ∈ r.short)
      (valued : r.takesValue = true) : MeansShort [c] [] (some r)
  | attached {r : OptionRule} {c : Char} {value : String} (known : r ∈ rules) (name : c ∈ r.short)
      (valued : r.takesValue = true) (nonempty : value ≠ "")
      (spelled : Text.IsSpelling value.toList) :
      MeansShort (c :: value.toList) [(r, value)] none

/-- What a word of options means. -/
inductive MeansWord : String → List (OptionRule × String) → Option OptionRule → Prop
  | flag {r : OptionRule} (known : r ∈ rules) (flag : r.takesValue = false) :
      MeansWord r.long [(r, "")] none
  | waiting {r : OptionRule} (known : r ∈ rules) (valued : r.takesValue = true) :
      MeansWord r.long [] (some r)
  | attached {r : OptionRule} (value : String) (known : r ∈ rules) (valued : r.takesValue = true) :
      MeansWord (r.long ++ "=" ++ value) [(r, value)] none
  | short {c : Char} {cs : List Char} {options : List (OptionRule × String)}
      {waiting : Option OptionRule} (first : MeansShort rules (c :: cs) options waiting) :
      MeansWord (String.ofList ('-' :: c :: cs)) options waiting

/-- What a command line means. -/
inductive Means : List String → Words → Prop
  | nothing : Means [] {}
  | argument {word : String} {words : List String} {w : Words}
      (plain : isOptionWord word.toList = false) (rest : Means words w) :
      Means (word :: words) (w.withArgument word)
  | options {word : String} {options : List (OptionRule × String)} {words : List String}
      {w : Words} (first : MeansWord rules word options none) (rest : Means words w) :
      Means (word :: words) (w.withOptions options)
  | value {word : String} {options : List (OptionRule × String)} {r : OptionRule}
      (value : String) {words : List String} {w : Words}
      (first : MeansWord rules word options (some r)) (rest : Means words w) :
      Means (word :: value :: words) (w.withOptions (options ++ [(r, value)]))
  | arguments (words : List String) : Means ("--" :: words) { arguments := words }

end

/-! ## The reader -/

variable {rules : List OptionRule}

/-- A reading of a word that comes to the given options. -/
def Reading.Of (reading : Reading) (options : List (OptionRule × String))
    (waiting : Option OptionRule) : Prop :=
  reading.settled = options ∧ reading.waiting.map (·.1) = waiting

/-- The reader finds what a cluster of short options means. -/
theorem readShort_of_means (h : Apart rules) {cs : List Char}
    {options : List (OptionRule × String)} {waiting : Option OptionRule}
    (hmeans : MeansShort rules cs options waiting) :
    ∃ reading, readShort rules (letters cs) = .ok reading ∧ reading.Of options waiting := by
  -- No rule of one letter stands for two options, so the rule that is found is the one that is
  -- meant.
  induction hmeans with
  | nothing => exact ⟨{}, rfl, rfl, rfl⟩
  | @flag r c cs options waiting known name flag rest ih =>
    obtain ⟨-, hmark, hfind⟩ := h.short r known c name
    obtain ⟨reading, hreading, hsettled, hwaiting⟩ := ih
    refine ⟨{ reading with settled := (r, "") :: reading.settled }, ?_, by rw [hsettled], hwaiting⟩
    rw [Text.letters_cons hmark, readShort]
    simp only [hfind, flag, hreading]
    rfl
  | @waiting r c known name valued =>
    obtain ⟨-, hmark, hfind⟩ := h.short r known c name
    refine ⟨{ waiting := some (r, shortName (.char c)) }, ?_, rfl, rfl⟩
    rw [Text.letters_cons hmark, readShort]
    simp only [hfind, valued]
    rfl
  | @attached r c value known name valued nonempty spelled =>
    obtain ⟨-, hmark, hfind⟩ := h.short r known c name
    refine ⟨{ settled := [(r, value)] }, ?_, rfl, rfl⟩
    -- With nothing behind it, the option would wait for the next word.
    have hletters : letters value.toList ≠ [] := by
      intro hnil
      rw [Text.IsSpelling, hnil] at spelled
      exact nonempty (String.toList_eq_nil_iff.mp spelled.symm)
    rw [Text.letters_cons hmark, readShort]
    simp only [hfind, valued, List.isEmpty_eq_false_iff.mpr hletters]
    rw [spelled, String.ofList_toList]
    rfl

/-- No short option is a second dash. -/
private theorem ne_dash_of_meansShort (h : Apart rules) {c : Char} {cs : List Char}
    {options : List (OptionRule × String)} {waiting : Option OptionRule}
    (hmeans : MeansShort rules (c :: cs) options waiting) : c ≠ '-' := by
  cases hmeans with
  | flag known name => exact (h.short _ known c name).1
  | waiting known name => exact (h.short _ known c name).1
  | attached known name => exact (h.short _ known c name).1

/-- Behind one dash with no dash behind it, no long option is named. -/
private theorem readLong?_of_short (h : Apart rules) {c : Char} {cs name : List Char} (hc : c ≠ '-')
    (hname : name <+: '-' :: c :: cs) (value : Option String) :
    readLong? rules (String.ofList name) value = none := by
  have hfind : rules.find? (·.long == String.ofList name) = none := by
    rw [List.find?_eq_none]
    intro r hr heq
    have hlong : r.long = String.ofList name := by simpa using heq
    obtain ⟨hdashes, -, -⟩ := h.dashes r hr
    rw [hlong, String.toList_ofList] at hdashes
    -- The two dashes of the long name would stand at the start of the word.
    have hprefix := hdashes.trans hname
    simp only [List.cons_prefix_cons, true_and, List.nil_prefix, and_true] at hprefix
    exact hc hprefix.symm
  rw [readLong?, hfind, Option.map_none]

/-- A word of short options. -/
private theorem readWord_of_short (h : Apart rules) {c : Char} {cs : List Char} (hc : c ≠ '-') :
    readWord rules ('-' :: c :: cs) = readShort rules (letters (c :: cs)) := by
  -- An equals sign would end the name of a long option, but with or without one none is named.
  cases hcut : Text.cutAt '=' ('-' :: c :: cs) with
  | none =>
    have hlong := readLong?_of_short h hc (List.prefix_refl ('-' :: c :: cs)) none
    simp only [readWord, hcut, hlong]
    split
    · contradiction
    · next heq => exact absurd (List.cons.inj (List.cons.inj heq).2).1 hc
    · rfl
  | some parts =>
    obtain ⟨name, value⟩ := parts
    obtain ⟨heq, -⟩ := Text.eq_of_cutAt hcut
    have hname : name <+: '-' :: c :: cs := ⟨'=' :: value, heq.symm⟩
    have hlong := readLong?_of_short h hc hname (some (String.ofList value))
    simp only [readWord, hcut, hlong]
    split
    · contradiction
    · next heq => exact absurd (List.cons.inj (List.cons.inj heq).2).1 hc
    · rfl

/-- A word that is a long name. -/
private theorem readWord_of_long (h : Apart rules) {r : OptionRule} (hr : r ∈ rules) :
    some (readWord rules r.long.toList) = readLong? rules r.long none := by
  obtain ⟨-, -, hequals⟩ := h.dashes r hr
  have hcut : Text.cutAt '=' r.long.toList = none := Text.cutAt_eq_none_iff.mpr hequals
  simp only [readWord, hcut, String.ofList_toList, readLong?, h.long r hr]
  rfl

/-- A word that is a long name with a value behind it. -/
private theorem readWord_of_attached (h : Apart rules) {r : OptionRule} (hr : r ∈ rules)
    (value : String) :
    some (readWord rules (r.long ++ "=" ++ value).toList) =
      readLong? rules r.long (some value) := by
  obtain ⟨-, -, hequals⟩ := h.dashes r hr
  have hcut : Text.cutAt '=' (r.long ++ "=" ++ value).toList =
      some (r.long.toList, value.toList) := by
    rw [String.toList_append, String.toList_append, List.append_assoc]
    exact Text.cutAt_append hequals value.toList
  simp only [readWord, hcut, String.ofList_toList, readLong?, h.long r hr]
  rfl

/-- The reader finds what a word means. -/
theorem readWord_of_means (h : Apart rules) {word : String}
    {options : List (OptionRule × String)} {waiting : Option OptionRule}
    (hmeans : MeansWord rules word options waiting) :
    ∃ reading, readWord rules word.toList = .ok reading ∧ reading.Of options waiting := by
  cases hmeans with
  | @flag r known flag =>
    refine ⟨{ settled := [(r, "")] }, ?_, rfl, rfl⟩
    apply Option.some.inj
    rw [readWord_of_long h known, readLong?, h.long r known, Option.map_some, flag]
  | @waiting r known valued =>
    refine ⟨{ waiting := some (r, r.long) }, ?_, rfl, rfl⟩
    apply Option.some.inj
    rw [readWord_of_long h known, readLong?, h.long r known, Option.map_some, valued]
  | @attached r value known valued =>
    refine ⟨{ settled := [(r, value)] }, ?_, rfl, rfl⟩
    apply Option.some.inj
    rw [readWord_of_attached h known, readLong?, h.long r known, Option.map_some, valued]
  | @short c cs options waiting first =>
    rw [String.toList_ofList, readWord_of_short h (ne_dash_of_meansShort h first)]
    exact readShort_of_means h first

/-- A long option is two dashes with a name behind them. -/
private theorem exists_long_eq (h : Apart rules) {r : OptionRule} (hr : r ∈ rules) :
    ∃ c cs, r.long.toList = '-' :: '-' :: c :: cs := by
  obtain ⟨⟨rest, hrest⟩, hne, -⟩ := h.dashes r hr
  cases rest with
  | nil => exact absurd (String.toList_inj.mp hrest.symm) hne
  | cons c cs => exact ⟨c, cs, hrest.symm⟩

/-- A word of options is told from an argument, and from the word behind which there are
no options. -/
private theorem isOptionWord_of_means (h : Apart rules) {word : String}
    {options : List (OptionRule × String)} {waiting : Option OptionRule}
    (hmeans : MeansWord rules word options waiting) :
    isOptionWord word.toList = true ∧ word ≠ "--" := by
  -- What has a sign behind two dashes is more than the two dashes.
  have hlong : ∀ c cs, word.toList = '-' :: '-' :: c :: cs →
      isOptionWord word.toList = true ∧ word ≠ "--" := by
    intro c cs hword
    refine ⟨by rw [hword]; rfl, ?_⟩
    rintro rfl
    simp at hword
  cases hmeans with
  | flag known =>
    obtain ⟨c, cs, hr⟩ := exists_long_eq h known
    exact hlong c cs hr
  | waiting known =>
    obtain ⟨c, cs, hr⟩ := exists_long_eq h known
    exact hlong c cs hr
  | attached value known =>
    obtain ⟨c, cs, hr⟩ := exists_long_eq h known
    exact hlong c (cs ++ '=' :: value.toList) (by simp [hr])
  | @short c cs _ _ first =>
    refine ⟨by rw [String.toList_ofList]; rfl, fun hword => ne_dash_of_meansShort h first ?_⟩
    have hchars : '-' :: c :: cs = ['-', '-'] := by simpa using congrArg String.toList hword
    exact (List.cons.inj (List.cons.inj hchars).2).1

/-- What a command line means is what is read off it. -/
theorem readWords_of_means (h : Apart rules) {words : List String} {w : Words}
    (hmeans : Means rules words w) : readWords rules true words = .ok w := by
  -- An option that needs a value takes the next word for it, whatever that looks like.
  induction hmeans with
  | nothing => rfl
  | @argument word words w plain rest ih =>
    have hdashes : word ≠ "--" := by
      rintro rfl
      contradiction
    rw [readWords, if_neg hdashes, plain, ih]
    rfl
  | @options word options words w first rest ih =>
    obtain ⟨hword, hdashes⟩ := isOptionWord_of_means h first
    obtain ⟨⟨settled, waiting⟩, hreading, rfl, hwaiting⟩ := readWord_of_means h first
    obtain rfl : waiting = none := by simpa using hwaiting
    rw [readWords, if_neg hdashes, if_pos hword, hreading]
    simp only [bind, Except.bind, ih]
  | @value word options r value words w first rest ih =>
    obtain ⟨hword, hdashes⟩ := isOptionWord_of_means h first
    obtain ⟨⟨settled, waiting⟩, hreading, rfl, hwaiting⟩ := readWord_of_means h first
    obtain ⟨name, rfl⟩ : ∃ name, waiting = some (r, name) := by
      obtain ⟨⟨_, name⟩, rfl, rfl⟩ := Option.map_eq_some_iff.mp hwaiting
      exact ⟨name, rfl⟩
    rw [readWords, if_neg hdashes, if_pos hword, hreading]
    simp only [bind, Except.bind, ih]
  | arguments words => rw [readWords, if_pos rfl]

end VersionGate.CommandLine

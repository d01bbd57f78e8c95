import VersionGate.Proofs.Yaml.Text
import VersionGate.Yaml.Token

/-!
# Scanning the lines of a block

Steps of the scanner on a document of block maps and block lists: keys, texts, empty lists and the
dashes of items. Between two of them the scanner knows of no key that is open and of no bracket, so
its state is a cursor, the tokens so far, the columns of the open blocks, and whether a key may
start: `between`.

`Scans s tokens` says what comes of scanning from `s` on to the end. The lemmas are about the first
steps of such a scan and say which scan is left, so a document is gone through from its end to its
start.

## Key results

- `scans_key`: a key with its colon, at the start of a map or further on
- `scans_write`: a text behind a key
- `scans_emptyList`, `scans_dash`: an empty list behind a key, and the dash of an item
- `scans_close`, `scans_end`: the ends of blocks
-/

namespace VersionGate.Yaml.Scanner

variable {c d : Cursor} {ts result : List Token} {bs : List Nat} {allowed : Bool} {s s' : Scanner}
  {cs rest : List Char} {k : Nat}

/-- A scanner between two tokens outside of all brackets. -/
def between (c : Cursor) (ts : List Token) (bs : List Nat) (allowed : Bool) : Scanner :=
  { cursor := c, tokens := ts, count := ts.length, blocks := bs, keyAllowed := allowed }

/-- What comes of scanning to the end, step by step. -/
inductive Scans : Scanner → List Token → Prop where
  | last {s s' : Scanner} (hstep : s.step = .ok (true, s')) : Scans s s'.tokens.reverse
  | step {s s' : Scanner} {result : List Token} (hstep : s.step = .ok (false, s'))
      (hless : s'.cursor.left < s.cursor.left) (h : Scans s' result) : Scans s result

/-- Every step takes at least one character, so as many as there are, and one, are enough. -/
theorem Scans.run (h : Scans s result) : ∀ fuel, s.cursor.left < fuel → s.run fuel = result := by
  induction h with
  | last hstep =>
    intro fuel hfuel
    obtain ⟨fuel, rfl⟩ : ∃ n, fuel = n + 1 := ⟨fuel - 1, by omega⟩
    rw [Scanner.run, hstep]
  | step hstep hless h ih =>
    intro fuel hfuel
    obtain ⟨fuel, rfl⟩ : ∃ n, fuel = n + 1 := ⟨fuel - 1, by omega⟩
    rw [Scanner.run, hstep]
    exact ih fuel (by omega)

/-- Scanners that take the same step scan the same. -/
private theorem Scans.of_step_eq (hstep : s.step = s'.step) (hleft : s.cursor.left = s'.cursor.left)
    (h : Scans s result) : Scans s' result := by
  cases h with
  | last h => exact .last (hstep ▸ h)
  | step h hless hrest => exact .step (hstep ▸ h) (hleft ▸ hless) hrest

/-! ## In front of a token -/

/-- Whether a text goes on with a token, and not with blanks, a comment or a line break. -/
def StartsToken (cs : List Char) : Prop :=
  PlainScalar.StartsOther cs ∧ cs.head? ≠ some '#' ∧ cs.head? ≠ some byteOrderMark

/-- A sign starts a token if it is no separator and not that of a comment or of the byte order. -/
private theorem startsToken_cons {ch : Char} (hsep : isSeparator ch = false) (hcomment : ch ≠ '#')
    (hmark : ch ≠ byteOrderMark) : StartsToken (ch :: cs) :=
  ⟨PlainScalar.startsOther_of_solid (solid_cons hsep cs), by simpa using hcomment,
    by simpa using hmark⟩

/-- What starts a line, or ends the document, starts a token. -/
private theorem startsToken_of_startsLine (h : StartsLine cs) : StartsToken cs := by
  refine ⟨PlainScalar.startsOther_of_startsLine h, ?_⟩
  rcases h with rfl | ⟨ch, rest, rfl, -, hcomment, hmark, -⟩
  · exact ⟨by simp, by simp⟩
  · exact ⟨by simpa using hcomment, by simpa using hmark⟩

/-- Spaces in front of a token are passed over. -/
private theorem skipToToken_spaces {n : Nat} (fuel : Nat)
    (hc : s.cursor.Before (List.replicate n ' ' ++ cs)) (hcs : StartsToken cs) :
    skipToToken (fuel + 1) s = s.moveTo (s.cursor.advance n) := by
  obtain ⟨hother, hcomment, hmark⟩ := hcs
  obtain ⟨hbehind, -, -⟩ := Cursor.advance_spaces hc
  -- neither a byte order mark nor a comment is passed over, and the line does not end
  have hstart : (decide (s.cursor.index = 0) && s.cursor.sees (· = byteOrderMark)) = false := by
    have hsees : s.cursor.sees (· = byteOrderMark) = false := by
      rw [Cursor.sees, hc.1]
      cases n with
      | zero => cases cs <;> simp_all
      | succ n => rfl
    simp [hsees]
  have hskip : (s.cursor.advance n).skipComment = s.cursor.advance n := by
    have hsees : (s.cursor.advance n).sees (· = '#') = false := by
      rw [Cursor.sees, hbehind.1]
      cases cs <;> simp_all
    rw [Cursor.skipComment, hsees]
    rfl
  simp only [skipToToken, hstart, Bool.false_eq_true, if_false, Cursor.skipSpaces_eq hc hother.1,
    hskip, Cursor.lineBreak?_eq_none hbehind hother.2]

/-- A line break is passed over, and then a key may start. -/
private theorem skipToToken_break (fuel : Nat) (hc : s.cursor.Before ('\n' :: cs))
    (houter : s.outer = []) :
    skipToToken (fuel + 1) s = skipToToken fuel ((s.moveTo s.cursor.next).allowKey true) := by
  have hstart : (decide (s.cursor.index = 0) && s.cursor.sees (· = byteOrderMark)) = false := by
    have hsees : s.cursor.sees (· = byteOrderMark) = false := by
      rw [Cursor.sees, hc.1]
      rfl
    simp [hsees]
  have hskip : s.cursor.skipSpaces.skipComment = s.cursor := by
    have hspaces : s.cursor.skipSpaces = s.cursor :=
      Cursor.skipSpaces_eq (n := 0) hc (by simp)
    rw [hspaces, Cursor.skipComment, Cursor.sees, hc.1]
    rfl
  have hflow : (s.moveTo s.cursor.next).inFlow = false := by simp [inFlow, moveTo, houter]
  simp only [skipToToken, hstart, Bool.false_eq_true, if_false, hskip,
    Cursor.lineBreak?_of_endsLine hc ⟨by decide, by decide⟩, hflow]

/-- Whether a text stands next, behind `k` blanks of its line: in this line, where a key may start,
or in the next one. -/
def Leads (c : Cursor) (allowed : Bool) (k : Nat) (cs : List Char) : Prop :=
  (allowed = true ∧ ∃ n, c.Before (List.replicate n ' ' ++ cs) ∧ c.column + n = k) ∨
    c.Before ('\n' :: (List.replicate k ' ' ++ cs))

/-- The scanner moves to what stands next, where a key may start. -/
private theorem skipToToken_of_leads (h : Leads c allowed k cs) (hcs : StartsToken cs) :
    ∃ d, (∀ ts bs, skipToToken (c.left + 1) (between c ts bs allowed) = between d ts bs true) ∧
      d.Before cs ∧ d.column = k ∧ d.left ≤ c.left := by
  rcases h with ⟨rfl, n, hc, hk⟩ | hc
  · -- in this line
    obtain ⟨hbehind, -, hcolumn⟩ := Cursor.advance_spaces hc
    refine ⟨c.advance n, fun _ _ => skipToToken_spaces c.left hc hcs, hbehind, by omega, ?_⟩
    rw [hbehind.left, hc.left, List.length_append]
    omega
  · -- in the next line: the line break takes one step of the fuel
    obtain ⟨hbehind, -, hcolumn⟩ := Cursor.advance_spaces hc.next
    have hleft : c.left = c.next.left + 1 := by
      rw [hc.left, hc.next.left, List.length_cons]
    refine ⟨c.next.advance k, ?_, hbehind, ?_, ?_⟩
    · intro ts bs
      rw [hleft, skipToToken_break _ hc rfl]
      exact skipToToken_spaces _ hc.next hcs
    · rw [hcolumn, Cursor.column_next_lineFeed hc]
      omega
    · rw [hleft, hbehind.left, hc.next.left, List.length_append]
      omega

/-! ## One step -/

private theorem refresh_between :
    (between c ts bs allowed).refresh = .ok (between c ts bs allowed) := rfl

/-- Blocks that start no further in than a token stay open. -/
private theorem closeBlocks_eq_self {column : Nat} (h : ∀ b ∈ s.blocks.head?, b ≤ column) :
    s.closeBlocks column = s := by
  have hnone : s.blocks.takeWhile (column < ·) = [] := by
    cases hs : s.blocks with
    | nil => rfl
    | cons b bs => simp [Nat.not_lt.mpr (h b (by rw [hs]; rfl))]
  simp [closeBlocks, hnone]

/-- A step scans the token that stands next. -/
private theorem step_eq_token {ch : Char}
    (hskip : skipToToken (s.cursor.left + 1) s = s') (hrefresh : s'.refresh = .ok s')
    (hs' : s'.cursor.Before (ch :: rest)) :
    s.step = ((s'.closeBlocks s'.cursor.column).token ch rest).map fun s => (false, s) := by
  simp only [step, hskip, hrefresh, bind, Except.bind, hs'.1]
  cases (s'.closeBlocks s'.cursor.column).token ch rest <;> rfl

/-- What is scanned where a token stands next. -/
private theorem scans_of_token {ch : Char} (s'' : Scanner)
    (hskip : skipToToken (s.cursor.left + 1) s = s') (hrefresh : s'.refresh = .ok s')
    (hs' : s'.cursor.Before (ch :: rest)) (hleft : s'.cursor.left ≤ s.cursor.left)
    (hbs : ∀ b ∈ s'.blocks.head?, b ≤ s'.cursor.column) (htoken : s'.token ch rest = .ok s'')
    (hless : s''.cursor.left < s'.cursor.left) (h : Scans s'' result) : Scans s result := by
  refine .step ?_ (by omega) h
  rw [step_eq_token hskip hrefresh hs', closeBlocks_eq_self hbs, htoken]
  rfl

/-! ## Which token it is -/

/-- A plain scalar starts with what is no sign, and with three of the signs if something is right
behind them. -/
private theorem startsPlain_eq_true {ch : Char} {gap : Bool} (hflow : s.inFlow = false)
    (hsep : isSeparator ch = false) (hindicator : Scalar.indicators.contains ch = false)
    (hsign : (ch = '-' ∨ ch = '?' ∨ ch = ':') → gap = false) : s.startsPlain ch gap = true := by
  by_cases hs : ch = '-' ∨ ch = '?' ∨ ch = ':'
  · have hgap := hsign hs
    rcases hs with rfl | rfl | rfl <;> simp [startsPlain, hflow, hgap]
  · have hall : signs.all (fun x => x = '-' || x = '?' || x = ':' || Scalar.indicators.contains x) =
        true := by decide
    have hsigns : signs.contains ch = false := by
      rw [← Bool.not_eq_true, List.contains_iff_mem]
      intro hmem
      have hch := List.all_eq_true.mp hall ch hmem
      simp only [hindicator, Bool.or_false, Bool.or_eq_true, decide_eq_true_eq, or_assoc] at hch
      exact hs hch
    rw [startsPlain, hsep, hsigns]
    rfl

/-- A token that is neither at the start of a line nor a sign of its own is a plain scalar. -/
private theorem token_eq_plain {ch : Char} (hmark : s.cursor.column = 0 → s.cursor.atMark = false)
    (hflow : s.inFlow = false) (hsep : isSeparator ch = false)
    (hindicator : Scalar.indicators.contains ch = false)
    (hsign : (ch = '-' ∨ ch = '?' ∨ ch = ':') → endsOr isSeparator rest = false) :
    s.token ch rest = s.plain := by
  have hne : ∀ sign, Scalar.indicators.contains sign = true → ch ≠ sign := by
    rintro sign hs rfl
    exact absurd (hs.symm.trans hindicator) (by decide)
  -- at the start of a line, no document mark
  have hmarks : ∀ m, (m = '-' ∨ m = '.') →
      (decide (s.cursor.column = 0) && s.cursor.atMarkOf m) = false := by
    intro m hm
    by_cases hcolumn : s.cursor.column = 0
    · have := hmark hcolumn
      simp only [Cursor.atMark, Bool.or_eq_false_iff] at this
      rcases hm with rfl | rfl
      · simp [this.1]
      · simp [this.2]
    · simp [hcolumn]
  -- a dash, a question mark or a colon with something right behind it
  have hgap : ∀ sign, (sign = '-' ∨ sign = '?' ∨ sign = ':') →
      (decide (ch = sign) && endsOr isSeparator rest) = false := by
    rintro sign hs
    by_cases heq : ch = sign
    · subst heq
      simp [hsign hs]
    · simp [heq]
  have hplain : s.startsPlain ch (endsOr isSeparator rest) = true :=
    startsPlain_eq_true hflow hsep hindicator hsign
  unfold token
  simp only [hne '%' (by decide), hne '[' (by decide), hne ']' (by decide),
    hne '\x7b' (by decide), hne '\x7d' (by decide), hne ',' (by decide), hne '*' (by decide),
    hne '&' (by decide), hne '!' (by decide), hne '|' (by decide), hne '>' (by decide),
    hne '\'' (by decide), hne '"' (by decide), hmarks '-' (.inl rfl), hmarks '.' (.inr rfl), hflow,
    hgap '-' (.inl rfl), hgap '?' (.inr (.inl rfl)), hgap ':' (.inr (.inr rfl)), hplain,
    decide_false, Bool.false_and, Bool.false_or, Bool.false_eq_true, if_false, if_true]

/-! The other tokens start with a sign of their own, which starts no document mark. -/

private theorem token_eq_value (hc : s.cursor.Before (':' :: rest))
    (hrest : endsOr isSeparator rest = true) :
    s.token ':' rest = s.value := by
  have hdash := Cursor.atMarkOf_eq_false hc (by decide : ':' ≠ '-')
  have hpoint := Cursor.atMarkOf_eq_false hc (by decide : ':' ≠ '.')
  simp [token, hdash, hpoint, hrest]

/-- A bracket opens a list. -/
private theorem token_eq_openFlow (hc : s.cursor.Before ('[' :: rest)) :
    s.token '[' rest = s.openFlow .flowListStart := by
  have hdash := Cursor.atMarkOf_eq_false hc (by decide : '[' ≠ '-')
  have hpoint := Cursor.atMarkOf_eq_false hc (by decide : '[' ≠ '.')
  simp [token, hdash, hpoint]

/-- A bracket closes a list. -/
private theorem token_eq_closeFlow (hc : s.cursor.Before (']' :: rest)) :
    s.token ']' rest = s.closeFlow .flowListEnd := by
  have hdash := Cursor.atMarkOf_eq_false hc (by decide : ']' ≠ '-')
  have hpoint := Cursor.atMarkOf_eq_false hc (by decide : ']' ≠ '.')
  simp [token, hdash, hpoint]

/-- A quote starts a text. -/
private theorem token_eq_quoted {quote : Char} (hquote : quote = '\'' ∨ quote = '"')
    (hc : s.cursor.Before (quote :: rest)) : s.token quote rest = s.quoted quote := by
  have hdash : quote ≠ '-' := by rcases hquote with rfl | rfl <;> decide
  have hpoint : quote ≠ '.' := by rcases hquote with rfl | rfl <;> decide
  have hnotDash := Cursor.atMarkOf_eq_false hc hdash
  have hnotPoint := Cursor.atMarkOf_eq_false hc hpoint
  rcases hquote with rfl | rfl <;> simp [token, hnotDash, hnotPoint]

/-- A dash with a space behind it starts an item. -/
private theorem token_eq_blockEntry (hc : s.cursor.Before ('-' :: ' ' :: rest)) :
    s.token '-' (' ' :: rest) = s.blockEntry := by
  -- a dash starts a document mark, but not with a space behind it
  have hdash : s.cursor.atMarkOf '-' = false := by
    cases rest <;> simp [Cursor.atMarkOf, hc.1]
  have hpoint := Cursor.atMarkOf_eq_false hc (by decide : '-' ≠ '.')
  simp [token, hdash, hpoint, endsOr, isSeparator, isBlank]

/-- The place where a key could have started that a scanner remembers. -/
def keyAt (c : Cursor) (ts : List Token) (bs : List Nat) : PendingKey :=
  ⟨ts.length, bs.head? == some c.column, c.index, c.line, c.column⟩

/-- A plain scalar is what is read of it, behind the mark of a key. -/
private theorem plain_eq {text : List Char} {fresh : Bool} (hmark : s.markPending = .ok s')
    (hread : PlainScalar.read s'.inFlow s'.innerColumn s'.cursor = (text, d, fresh)) :
    s.plain = .ok (((s'.allowKey fresh).push
      (.scalar (String.ofList (Text.spell text)) true)).moveTo d) := by
  simp only [plain, hmark, bind, Except.bind, hread]

/-- A plain scalar outside of all brackets, which could be a key where one may start. -/
private theorem plain_between {text : List Char} {fresh : Bool}
    (hread : PlainScalar.read false (between c ts bs allowed).innerColumn c = (text, d, fresh)) :
    (between c ts bs allowed).plain =
      .ok { between d (.scalar (String.ofList (Text.spell text)) true :: ts) bs fresh with
        pending := if allowed then some (keyAt c ts bs) else none } := by
  have hmark : (between c ts bs allowed).markPending = .ok { between c ts bs allowed with
      pending := if allowed then some (keyAt c ts bs) else none } := by
    cases allowed <;> rfl
  exact plain_eq hmark hread

/-! ## Keys -/

/-- Whether a text can be a key on its own: a word of letters that is not too long. -/
structure IsKey (key : List Char) : Prop where
  alpha : key.all Char.isAlpha = true
  ne_nil : key ≠ []
  length : key.length ≤ keyLength

section Key

variable {key : List Char}

/-- A key holds nothing that is no letter. -/
private theorem IsKey.ne (hkey : IsKey key) (special : Char) (h : special.isAlpha = false) :
    ∀ ch ∈ key, ch ≠ special := by
  rintro ch hch rfl
  simp [List.all_eq_true.mp hkey.alpha ch hch] at h

/-- A key holds no line break. -/
theorem IsKey.not_break (hkey : IsKey key) : ∀ ch ∈ key, isBreak ch = false := by
  intro ch hch
  have hfeed := hkey.ne '\n' (by decide) ch hch
  have hreturn := hkey.ne '\r' (by decide) ch hch
  have hnext := hkey.ne '\u0085' (by decide) ch hch
  have hline := hkey.ne '\u2028' (by decide) ch hch
  have hparagraph := hkey.ne '\u2029' (by decide) ch hch
  simp [isBreak, hfeed, hreturn, hnext, hline, hparagraph]

/-- A key is a word. -/
theorem IsKey.isWord (hkey : IsKey key) : PlainScalar.IsWord key where
  not_separator ch hch := by
    have hspace := hkey.ne ' ' (by decide) ch hch
    have htab := hkey.ne '\t' (by decide) ch hch
    simp [isSeparator, isBlank, hspace, htab, hkey.not_break ch hch]
  ne_nil := hkey.ne_nil
  head h := hkey.ne '#' (by decide) '#' (List.mem_of_head? h) rfl
  last h := hkey.ne ':' (by decide) ':' (List.mem_of_getLast? h) rfl

/-- A key starts a line. -/
theorem IsKey.startsLine (hkey : IsKey key) (cs : List Char) : StartsLine (key ++ cs) := by
  obtain ⟨ch, key, rfl⟩ := List.exists_cons_of_ne_nil hkey.ne_nil
  have hne : ∀ special : Char, special.isAlpha = false → ch ≠ special := fun special h =>
    hkey.ne special h ch (by simp)
  refine .inr ⟨ch, key ++ cs, rfl, hkey.isWord.not_separator ch (by simp), hne _ (by decide),
    hne _ (by decide), hne _ (by decide), fun h => absurd h (hne _ (by decide))⟩

/-- A key is read up to its colon. -/
private theorem read_key (hkey : IsKey key) (hc : c.Before (key ++ ':' :: rest))
    (hrest : endsOr isSeparator rest = true) (inner : Nat) :
    PlainScalar.read false inner c = (key, c.advance key.length, false) := by
  have hgap : PlainScalar.readGap (c.advance key.length) = ([], c.advance key.length, false) :=
    PlainScalar.readGap_spaces (n := 0) hc.advance ⟨by simp, by simp [isBreak]⟩
  rw [PlainScalar.read, PlainScalar.readWords_word hkey.isWord (PlainScalar.word_of_colon hrest) hc
    false c.left hgap]
  rfl

/-- The scanner behind a key, of which it does not know yet that it is one. -/
def afterKey (c : Cursor) (ts : List Token) (bs : List Nat) (key : List Char) : Scanner :=
  { between (c.advance key.length) (.scalar (String.ofList key) true :: ts) bs false with
    pending := some (keyAt c ts bs) }

/-- A key is scanned as a plain scalar, of which the scanner remembers where it started. -/
private theorem plain_key (hkey : IsKey key) (hc : c.Before (key ++ ':' :: rest))
    (hrest : endsOr isSeparator rest = true) :
    (between c ts bs true).plain = .ok (afterKey c ts bs key) := by
  have hmark : Text.mark ∉ key := fun h => hkey.ne Text.mark (by decide) _ h rfl
  rw [plain_between (read_key hkey hc hrest _), Text.spell_eq_self hmark]
  rfl

/-- The column of a cursor behind a key. -/
private theorem column_afterKey (hkey : IsKey key) (hc : c.Before (key ++ rest)) :
    (c.advance key.length).column = c.column + key.length :=
  (Cursor.advance_of_not_break hc hkey.not_break).2.2
    fun h => hkey.ne byteOrderMark (by decide) _ h rfl

/-- The step at the start of a key. -/
private theorem token_key (ts : List Token) (bs : List Nat) (hkey : IsKey key)
    (hc : c.Before (key ++ ':' :: rest)) (hrest : endsOr isSeparator rest = true) :
    ∃ ch more, key ++ ':' :: rest = ch :: more ∧
      (between c ts bs true).token ch more = .ok (afterKey c ts bs key) := by
  obtain ⟨ch, key, rfl⟩ := List.exists_cons_of_ne_nil hkey.ne_nil
  have hne : ∀ special : Char, special.isAlpha = false → ch ≠ special := fun special h =>
    hkey.ne special h ch (by simp)
  refine ⟨ch, key ++ ':' :: rest, rfl, ?_⟩
  rw [token_eq_plain, plain_key hkey hc hrest]
  · exact fun _ => Cursor.atMark_eq_false hc (hne _ (by decide)) (hne _ (by decide))
  · rfl
  · exact hkey.isWord.not_separator ch (by simp)
  · have hall : Scalar.indicators.all (!·.isAlpha) = true := by decide
    rw [← Bool.not_eq_true, List.contains_iff_mem]
    exact fun h => hne ch (by simpa using List.all_eq_true.mp hall ch h) rfl
  · rintro (h | h | h)
    · exact absurd h (hne _ (by decide))
    · exact absurd h (hne _ (by decide))
    · exact absurd h (hne _ (by decide))

/-- A key that is known by its colon, at the start of a map or not. -/
private theorem token_colon {opens : Bool} (hc : c.Before (key ++ ':' :: rest))
    (hrest : endsOr isSeparator rest = true) (hopens : bs.head?.all (· < c.column) = opens) :
    (afterKey c ts bs key).token ':' rest =
      .ok (between ((c.advance key.length).next)
        (.value :: .scalar (String.ofList key) true :: .key
          :: ((if opens then [.blockMapStart] else []) ++ ts))
        (if opens then c.column :: bs else bs) false) := by
  rw [token_eq_value hc.advance hrest]
  -- the key and the start of a map are put in front of the one token that came after the mark
  have hlater : ts.length + 1 - ts.length = 1 := by omega
  have hnext : (c.advance key.length).advance 1 = (c.advance key.length).next := rfl
  cases opens <;>
    simp [value, afterKey, keyAt, between, inFlow, startsBlock, insertAfter, allowKey, pushNext,
      push, moveTo, hlater, hopens, hnext] <;>
    omega

/-- The scanner goes on to the colon behind a key. -/
private theorem skipToToken_afterKey (hc : c.Before (key ++ ':' :: rest)) :
    skipToToken ((afterKey c ts bs key).cursor.left + 1) (afterKey c ts bs key) =
      afterKey c ts bs key :=
  skipToToken_spaces (n := 0) _ hc.advance
    (startsToken_cons (by decide) (by decide) (by decide))

/-- The key is near enough to its colon. -/
private theorem refresh_afterKey (hkey : IsKey key) (hc : c.Before (key ++ ':' :: rest)) :
    (afterKey c ts bs key).refresh = .ok (afterKey c ts bs key) := by
  -- the colon is in the line of the key, and the key is short
  have hline := (Cursor.advance_of_not_break hc hkey.not_break).1
  have hindex := Cursor.index_advance hc
  have hlength := hkey.length
  have hfresh : PendingKey.isStale (c.advance key.length) (keyAt c ts bs) = false := by
    simp only [PendingKey.isStale, keyAt, hline, hindex, bne_self_eq_false, Bool.false_or,
      decide_eq_false_iff_not]
    omega
  simp [refresh, afterKey, between, refreshOne, hfresh, bind, Except.bind, pure, Except.pure]

/-- A key with its colon: the scan goes on behind the colon, in a new map or in the one of the last
key. -/
theorem scans_key {opens : Bool} (hkey : IsKey key) (hrest : endsOr isSeparator rest = true)
    (hopens : bs.head?.all (· < k) = opens) (hbs : ∀ b ∈ bs.head?, b ≤ k)
    (hc : Leads c allowed k (key ++ ':' :: rest))
    (h : ∀ d : Cursor, d.Before rest → k < d.column →
      Scans (between d (.value :: .scalar (String.ofList key) true :: .key
        :: ((if opens then [.blockMapStart] else []) ++ ts)) (if opens then k :: bs else bs) false)
        result) :
    Scans (between c ts bs allowed) result := by
  obtain ⟨d, hskip, hd, hcolumn, hleft⟩ := skipToToken_of_leads hc
    (startsToken_of_startsLine (hkey.startsLine _))
  obtain ⟨ch, more, heq, htoken⟩ := token_key ts bs hkey hd hrest
  have hbehind := column_afterKey hkey hd
  have hpos := List.length_pos_iff.mpr hkey.ne_nil
  -- the key, of which the colon behind it says that it is one
  have hkeyLeft : (d.advance key.length).left < d.left := by
    rw [hd.advance.left, hd.left, List.length_append]
    omega
  have hcolonLeft : (d.advance key.length).next.left < (d.advance key.length).left := by
    rw [hd.advance.next.left, hd.advance.left, List.length_cons]
    omega
  have hcolon := (Cursor.next_of_not_break hd.advance (by decide)).2.1
  have hblocks : ∀ b ∈ bs.head?, b ≤ d.column := by rwa [hcolumn]
  refine scans_of_token _ (hskip ts bs) refresh_between (heq ▸ hd) hleft hblocks htoken hkeyLeft ?_
  refine scans_of_token _ (skipToToken_afterKey hd) (refresh_afterKey hkey hd) hd.advance
    (Nat.le_refl _) (fun b hb => ?_) (token_colon hd hrest (hcolumn ▸ hopens)) hcolonLeft ?_
  · have hle : b ≤ (d.advance key.length).column := by
      have := hblocks b hb
      omega
    exact hle
  · rw [hcolumn]
    exact h _ hd.advance.next (by omega)

end Key

/-! ## Texts -/

section Text

variable {indent column k' : Nat} {after : List Char}

/-- What is further in than the last block starts. -/
private theorem lt_of_lastBlock_lt (hbs : bs.head? = some k) (hcolumn : k < column) :
    ∀ b ∈ bs.head?, b < column := by
  intro b hb
  obtain rfl : k = b := by simpa [hbs] using hb
  exact hcolumn

/-- A token behind a space, where no key may start. -/
private theorem scans_of_value {ch : Char} (s'' : Scanner) (hd : d.Before (' ' :: ch :: rest))
    (hstart : StartsToken (ch :: rest)) (hbs : ∀ b ∈ bs.head?, b < d.column)
    (htoken : (between d.next ts bs false).token ch rest = .ok s'')
    (hless : s''.cursor.left < d.next.left) (h : Scans s'' result) :
    Scans (between d ts bs false) result := by
  have hleft : d.next.left ≤ d.left := by
    rw [hd.next.left, hd.left]
    simp only [List.length_cons]
    omega
  have hcolumn := (Cursor.next_of_not_break hd (by decide)).2.1
  have hskip := skipToToken_spaces (s := between d ts bs false) (n := 1) d.left hd hstart
  refine scans_of_token _ hskip refresh_between hd.next hleft (fun b hb => ?_) htoken hless h
  have hle : b ≤ d.next.column := by
    have := hbs b hb
    omega
  exact hle

/-- A text between quotes behind a key. -/
private theorem scans_quoted {quote : Char} (hquote : quote = '\'' ∨ quote = '"')
    {inside : List Char} {ls : List Text.Letter}
    (hd : d.Before (' ' :: quote :: (inside ++ quote :: '\n' :: (List.replicate k' ' ' ++ after))))
    (hbs : ∀ b ∈ bs.head?, b < d.column)
    (hread : QuotedScalar.Yields quote (inside ++ quote :: '\n' :: (List.replicate k' ' ' ++ after))
      ls ('\n' :: (List.replicate k' ' ' ++ after)))
    (h : ∀ (e : Cursor) (allowed : Bool), Leads e allowed k' after → Scans (between e
      (.scalar (String.ofList (ls.flatMap Text.Letter.spell)) false :: ts) bs allowed) result) :
    Scans (between d ts bs false) result := by
  have hquoted := hd.next
  obtain ⟨e, hinside, he⟩ := hread d.next.left d.next.next hquoted.next (by
    rw [hquoted.left, List.length_cons]
    omega)
  -- The text is read up to its second quote, and behind that comes the next line.
  refine scans_of_value
    (between e (.scalar (String.ofList (ls.flatMap Text.Letter.spell)) false :: ts) bs false) hd ?_
    hbs ?_ ?_ (h e false (.inr he))
  · rcases hquote with rfl | rfl
    · exact startsToken_cons (by decide) (by decide) (by decide)
    · exact startsToken_cons (by decide) (by decide) (by decide)
  · have hread' : QuotedScalar.read quote d.next = .ok (ls, e) := hinside
    rw [token_eq_quoted hquote hquoted, quoted, content]
    simp only [markPending, between, Bool.false_eq_true, if_false, bind, Except.bind, hread']
    rfl
  · have hless : e.left < d.next.left := by
      rw [he.left, hquoted.left]
      simp only [List.length_cons, List.length_append]
      omega
    exact hless

/-- What is written for a plain text starts as the text does. -/
private theorem writeRuns_starts {c : Char} {cs : List Char}
    (hplain : Scalar.allowsPlain (c :: cs) = true) (indent column : Nat) (mayBreak : Bool) :
    ∃ more,
      Scalar.writeRuns indent mayBreak column (fun c => [c]) (Scalar.runs (c :: cs)) = c :: more ∧
      Scalar.IsText c ∧ Scalar.indicators.contains c = false ∧
      ∀ behind, (c = '-' ∨ c = '?' ∨ c = ':') → endsOr isSeparator (more ++ behind) = false := by
  have hwords := Scalar.words_runs (by simp) hplain
  have hstarts : Scalar.startsPlain (c :: cs) = true := by
    simp only [Scalar.allowsPlain, Bool.and_eq_true] at hplain
    exact hplain.1.2
  obtain ⟨hindicator, hsign⟩ := Scalar.startsPlain_cons hstarts
  obtain ⟨r, rs, heq, hr, htext, hgap⟩ := Scalar.exists_of_words hwords
  obtain rfl := Scalar.first_of_runs heq
  have hcs := Scalar.rest_of_runs heq
  rw [heq, Scalar.writeRuns_text htext, List.flatMap_singleton', Scalar.Run.chars]
  refine ⟨_, rfl, htext, hindicator, fun behind hc => ?_⟩
  have hends := hsign hc
  rw [hcs] at hends
  -- A sign is followed by a character of its own run, or else the text would end behind it.
  cases hrest : r.rest with
  | nil =>
    rw [hrest, List.nil_append, hgap.endsOr] at hends
    exact absurd hends (by decide)
  | cons x xs =>
    rw [hrest] at hends
    exact hends

/-- A text goes on in lines that are further in than the last block. -/
private theorem innerColumn_between (hbs : bs.head? = some k) :
    (between c ts bs allowed).innerColumn = k + 1 := by
  cases bs with
  | nil => simp at hbs
  | cons b bs =>
    obtain rfl : b = k := by simpa using hbs
    rfl

/-- The step at the start of a plain text that is not the start of a line. -/
private theorem token_plain {ch : Char} {text : List Char} {fresh : Bool} (hpos : 0 < c.column)
    (htext : Scalar.IsText ch) (hindicator : Scalar.indicators.contains ch = false)
    (hsign : (ch = '-' ∨ ch = '?' ∨ ch = ':') → endsOr isSeparator rest = false)
    (hread : PlainScalar.read false (between c ts bs false).innerColumn c = (text, d, fresh)) :
    (between c ts bs false).token ch rest =
      .ok (between d (.scalar (String.ofList (Text.spell text)) true :: ts) bs fresh) := by
  have hmark : (between c ts bs false).cursor.column = 0 →
      (between c ts bs false).cursor.atMark = false := fun hzero => absurd hzero (Nat.ne_of_gt hpos)
  rw [token_eq_plain hmark rfl htext.not_separator hindicator hsign, plain_between hread]
  rfl

/-- A plain text behind a key. -/
theorem scans_plain (hne : cs ≠ []) (hplain : Scalar.allowsPlain cs = true)
    (hd : d.Before (' ' :: (Scalar.writeRuns indent true column (fun c => [c]) (Scalar.runs cs)
      ++ '\n' :: (List.replicate k' ' ' ++ after))))
    (hbs : bs.head? = some k) (hcolumn : k < d.column) (hindent : k < indent) (hk : k' ≤ k)
    (hafter : StartsLine after)
    (h : ∀ (e : Cursor) (allowed : Bool), Leads e allowed k' after →
      Scans (between e (.scalar (String.ofList (Text.spell cs)) true :: ts) bs allowed) result) :
    Scans (between d ts bs false) result := by
  obtain ⟨ch, cs, rfl⟩ := List.exists_cons_of_ne_nil hne
  obtain ⟨more, heq, htext, hindicator, hsign⟩ := writeRuns_starts hplain indent column true
  have hnext := (Cursor.next_of_not_break hd (by decide)).2.1
  -- the text is read up to the next line
  have hinner : k + 1 ≤ indent := hindent
  have hwords := Scalar.words_runs (by simp) hplain
  obtain ⟨e, hread, he, hcolumn'⟩ := Scalar.yields_writeWords hinner (by omega : k' < k + 1) hafter
    hwords true column (d.next.left + 1) false d.next hd.next (by omega)
    (by rw [hd.next.left]; omega)
  rw [Scalar.flatMap_chars_runs] at hread
  have hmark : ch ≠ byteOrderMark := Scalar.ne_of_not_special htext.1 (by decide)
  have hcomment : ch ≠ '#' := by
    rintro rfl
    exact absurd hindicator (by decide)
  rw [heq] at hd
  have hd' : d.Before (' ' :: ch :: (more ++ '\n' :: (List.replicate k' ' ' ++ after))) := hd
  have hstart : StartsToken (ch :: (more ++ '\n' :: (List.replicate k' ' ' ++ after))) :=
    startsToken_cons htext.not_separator hcomment hmark
  have hhead := lt_of_lastBlock_lt hbs hcolumn
  have hless : e.left < d.next.left := by
    rw [he.left, hd.next.left]
    simp only [List.length_cons, List.length_append]
    omega
  have hinside : (between d.next ts bs false).innerColumn = k + 1 := innerColumn_between hbs
  exact scans_of_value _ hd' hstart hhead
    (token_plain (by omega) htext hindicator (hsign _) (hinside ▸ hread)) hless
    (h e true (.inl ⟨rfl, 0, he, hcolumn'⟩))

/-- The token that a text is scanned as, where its lines start with `indent` blanks. -/
def textToken (indent : Nat) (cs : List Char) : Token :=
  .scalar (String.ofList (Scalar.back indent cs)) (Scalar.style cs = .plain)

/-- A plain text is scanned as it is. -/
private theorem textToken_of_plain (hstyle : Scalar.style cs = .plain)
    (hplain : Scalar.allowsPlain cs = true) :
    textToken indent cs = .scalar (String.ofList (Text.spell cs)) true := by
  have hmark := Scalar.mark_not_mem_of_allowsPlain hplain
  simp [textToken, Scalar.back, hstyle, Text.spell_eq_self hmark]

/-- A text in single quotes is scanned as it comes back from them. -/
private theorem textToken_of_singleQuoted (hstyle : Scalar.style cs = .singleQuoted) :
    textToken indent cs = .scalar (String.ofList
      (((Scalar.singleBack cs).map .char).flatMap Text.Letter.spell)) false := by
  have hmark := Scalar.mark_not_mem_singleBack (Scalar.of_style_singleQuoted hstyle)
  have hspell : ((Scalar.singleBack cs).map .char).flatMap Text.Letter.spell =
      Scalar.singleBack cs := by
    rw [List.flatMap_map]
    exact Text.spell_eq_self hmark
  simp [textToken, Scalar.back, hstyle, hspell]

/-- A text in double quotes is scanned as it comes back from them. -/
private theorem textToken_of_doubleQuoted (hstyle : Scalar.style cs = .doubleQuoted) :
    textToken indent cs = .scalar (String.ofList
      ((Scalar.escapedBack indent true (Text.letters cs)).flatMap Text.Letter.spell)) false := by
  simp [textToken, Scalar.back, hstyle]

/-- A text behind a key. -/
theorem scans_write
    (hd : d.Before (' ' :: (Scalar.write indent column cs
      ++ '\n' :: (List.replicate k' ' ' ++ after))))
    (hbs : bs.head? = some k) (hcolumn : k < d.column) (hindent : k < indent)
    (hwrite : indent ≤ column) (hk : k' ≤ k) (hafter : StartsLine after)
    (h : ∀ (e : Cursor) (allowed : Bool), Leads e allowed k' after →
      Scans (between e (textToken indent cs :: ts) bs allowed) result) :
    Scans (between d ts bs false) result := by
  have hhead := lt_of_lastBlock_lt hbs hcolumn
  rw [Scalar.write] at hd
  -- The three styles differ in what reading makes of the text, which is what the token says.
  cases hstyle : Scalar.style cs with
  | plain =>
    obtain ⟨hne, hplain⟩ := Scalar.of_style_plain hstyle
    rw [hstyle] at hd
    rw [textToken_of_plain hstyle hplain] at h
    exact scans_plain hne hplain hd hbs hcolumn hindent hk hafter h
  | singleQuoted =>
    have hsingle := Scalar.of_style_singleQuoted hstyle
    have hread := Scalar.yields_writeRuns (by omega : 0 < indent)
      ('\n' :: (List.replicate k' ' ' ++ after)) (by simp)
      (Scalar.tidy_runs_of_allowsSingleQuotes hsingle) false (column + 1)
    rw [hstyle] at hd
    refine scans_quoted (.inl rfl) (by simpa using hd) hhead hread ?_
    rw [← Scalar.singleBack, ← textToken_of_singleQuoted hstyle]
    exact h
  | doubleQuoted =>
    have hread := Scalar.yields_writeEscaped (by omega : 0 < indent)
      ('\n' :: (List.replicate k' ' ' ++ after)) (Text.letters cs) true 0 (column + 1) 0 (by omega)
    rw [hstyle] at hd
    refine scans_quoted (.inr rfl) (by simpa using hd) hhead hread ?_
    rw [List.replicate_zero, List.nil_append, ← textToken_of_doubleQuoted hstyle]
    exact h

end Text

/-! ## Lists -/

/-- An empty list behind a key. -/
theorem scans_emptyList {k' : Nat} {after : List Char}
    (hd : d.Before (' ' :: '[' :: ']' :: '\n' :: (List.replicate k' ' ' ++ after)))
    (hbs : ∀ b ∈ bs.head?, b < d.column)
    (h : ∀ (e : Cursor) (allowed : Bool), Leads e allowed k' after →
      Scans (between e (.flowListEnd :: .flowListStart :: ts) bs allowed) result) :
    Scans (between d ts bs false) result := by
  -- two steps, one for each bracket, and between them the scanner is inside of brackets
  have hopen := hd.next
  have hclose := hopen.next
  have hcolumn := (Cursor.next_of_not_break hd (by decide)).2.1
  have hcolumn' := (Cursor.next_of_not_break hopen (by decide)).2.1
  have hless : d.next.next.left < d.next.left := by
    rw [hclose.left, hopen.left]
    exact Nat.lt_succ_self _
  have hless' : d.next.next.next.left < d.next.next.left := by
    rw [hclose.next.left, hclose.left]
    exact Nat.lt_succ_self _
  refine scans_of_value
    { between d.next.next (.flowListStart :: ts) bs true with outer := [none] } hd
    (startsToken_cons (by decide) (by decide) (by decide)) hbs (token_eq_openFlow hopen) hless ?_
  refine scans_of_token
    (between d.next.next.next (.flowListEnd :: .flowListStart :: ts) bs false)
    (skipToToken_spaces (n := 0) _ hclose (startsToken_cons (by decide) (by decide) (by decide)))
    rfl hclose (Nat.le_refl _) (fun b hb => ?_) (token_eq_closeFlow hclose) hless'
    (h _ _ (.inr hclose.next))
  have hle : b ≤ d.next.next.column := by
    have := hbs b hb
    omega
  exact hle

/-- The dash of an item, in the column of the last key: the list has no block of its own. -/
theorem scans_dash (hc : Leads c allowed k ('-' :: ' ' :: rest)) (hbs : bs.head? = some k)
    (h : ∀ e : Cursor, Leads e true (k + 2) rest →
      Scans (between e (.blockEntry :: ts) bs true) result) :
    Scans (between c ts bs allowed) result := by
  obtain ⟨d, hskip, hd, hcolumn, hleft⟩ := skipToToken_of_leads hc
    (startsToken_cons (by decide) (by decide) (by decide))
  have hblocks : ∀ b ∈ bs.head?, b = k := fun b hb => by simpa [hbs, eq_comm] using hb
  have htoken : (between d ts bs true).token '-' (' ' :: rest) =
      .ok (between d.next (.blockEntry :: ts) bs true) := by
    -- the dash is no further in than the map, so it does not start a block
    have hstarts : (between d ts bs true).startsBlock d.column = false := by
      simp [startsBlock, between, hbs, hcolumn]
    have hopen : (between d ts bs true).openBlock .blockListStart = between d ts bs true :=
      if_neg (by rw [show (between d ts bs true).cursor = d from rfl, hstarts]; simp)
    have hentry : (between d ts bs true).startEntry .blockListStart = .ok (between d ts bs true) :=
      congrArg Except.ok hopen
    rw [token_eq_blockEntry hd, blockEntry, hentry]
    rfl
  have hcolumn' := (Cursor.next_of_not_break hd (by decide)).2.2 (by decide)
  refine scans_of_token _ (hskip ts bs) refresh_between hd hleft (fun b hb => ?_) htoken ?_
    (h _ (.inl ⟨rfl, 1, hd.next, by omega⟩))
  · rw [hblocks b hb]
    exact Nat.le_of_eq hcolumn.symm
  · have hless : d.next.left < d.left := by
      rw [hd.next.left, hd.left]
      exact Nat.lt_succ_self _
    exact hless

/-! ## The ends of blocks -/

/-- Where the document ends, all blocks do. -/
private theorem step_eq_end (hskip : skipToToken (s.cursor.left + 1) s = between d ts bs true)
    (hd : d.Before []) :
    s.step = .ok (true, between d (List.replicate bs.length .blockEnd ++ ts) [] true) := by
  simp only [step, hskip, refresh_between, bind, Except.bind]
  rw [show (between d ts bs true).cursor.rest = [] from hd.1]
  simp [closeAllBlocks, dropPending, between, inFlow]

/-- A block ends where what stands next is not as far in. -/
theorem scans_close {b : Nat} (hc : Leads c allowed k cs) (hcs : StartsLine cs) (hk : k < b)
    (h : Scans (between c (.blockEnd :: ts) bs allowed) result) :
    Scans (between c ts (b :: bs) allowed) result := by
  obtain ⟨d, hskip, hd, hcolumn, -⟩ := skipToToken_of_leads hc (startsToken_of_startsLine hcs)
  refine .of_step_eq (s := between c (.blockEnd :: ts) bs allowed) ?_ rfl h
  -- the two scanners go to the same place and end the same blocks there
  cases cs with
  | nil =>
    rw [step_eq_end (hskip _ bs) hd, step_eq_end (hskip _ (b :: bs)) hd, List.length_cons,
      List.replicate_succ']
    simp
  | cons ch cs =>
    have hclose : (between d ts (b :: bs) true).closeBlocks d.column =
        (between d (.blockEnd :: ts) bs true).closeBlocks d.column := by
      have hcount : (bs.takeWhile (d.column < ·)).length + 1 + ts.length =
          (bs.takeWhile (d.column < ·)).length + (ts.length + 1) := by omega
      have hb : decide (d.column < b) = true := by simpa [hcolumn] using hk
      simp [closeBlocks, between, inFlow, hb, List.replicate_succ', hcount]
    rw [step_eq_token (hskip _ bs) refresh_between hd,
      step_eq_token (hskip _ (b :: bs)) refresh_between hd]
    exact congrArg (fun s => (Scanner.token s ch cs).map fun s => (false, s)) hclose.symm

/-- All blocks end with the document. -/
theorem scans_end (ts : List Token) (bs : List Nat) (hc : Leads c allowed k []) :
    Scans (between c ts bs allowed) (List.replicate bs.length Token.blockEnd ++ ts).reverse := by
  obtain ⟨d, hskip, hd, -, -⟩ := skipToToken_of_leads hc (startsToken_of_startsLine (.inl rfl))
  exact .last (step_eq_end (hskip ts bs) hd)

end VersionGate.Yaml.Scanner

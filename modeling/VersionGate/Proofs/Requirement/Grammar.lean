import VersionGate.Requirement.Parser
import VersionGate.Proofs.Requirement.Partition
import VersionGate.Proofs.Term
import VersionGate.Proofs.Traversal
import VersionGate.Text.Pieces

/-!
# The grammar of requirements

What a requirement text says can be told without tokens. It is cut at every comma and ampersand,
each segment at every bar, and the empty pieces are dropped; every piece that is left is a term, a
negation if it starts with an exclamation mark (`reading`). The descent through the tokens comes to
the same requirement and to the same fault.

## Key results

- `readGroup_eq`, `readGroups_eq`: what the two levels of the descent make of tokens
- `map_atoms_pieces_scanFrom`: cutting the tokens of a text agrees with cutting the text
- `readWith_eq_reading`: reading a text that is not empty follows the grammar
- `readWith_run`: a text without separators is one term
- `read_followsGrammar`: so do requirements on versions and on mods, with the leftmost fault
-/

namespace VersionGate.Requirement

/-! ## The grammar -/

/-- Whether a character stands between two groups. -/
def endsGroup (c : Char) : Bool := c == ',' || c == '&'

/-- Whether a character stands between two terms of a group. -/
def endsTerm (c : Char) : Bool := c == '|'

/-- The pieces of a text that are terms, group by group. -/
def termTexts (cs : List Char) : List (List (List Char)) :=
  (Text.pieces endsGroup cs).map fun segment =>
    (Text.pieces endsTerm segment).filter (!·.isEmpty)

/-- Whether a piece has an exclamation mark in front. -/
def isNegated (piece : List Char) : Bool := piece.head? == some '!'

/-- The atom in a piece, without the exclamation mark. -/
def atomText (piece : List Char) : List Char := if isNegated piece then piece.tail else piece

section

variable {ε : Type} (atom : List Char → Except ε Requirement)

/-- The term that a piece stands for. -/
def termOf (piece : List Char) : Except ε Requirement :=
  (atom (atomText piece)).map fun r => if isNegated piece then .negation r else r

/-- What a text stands for: all of its groups, each any of its terms. -/
def reading (cs : List Char) : Except ε Requirement := do
  let groups ← (termTexts cs).mapM (List.mapM (termOf atom))
  .ok (.allOf (groups.map .anyOf))

/-- The reader of a term makes of a piece what the grammar says. -/
theorem readTerm_eq_termOf (piece : List Char) : readTerm atom piece = termOf atom piece := by
  unfold readTerm
  split
  · rfl
  · next h =>
    have hneg : isNegated piece = false := by
      cases piece with
      | nil => rfl
      | cons c cs =>
        have hc : c ≠ '!' := fun hc => h cs (by rw [hc])
        simpa [isNegated] using hc
    cases hatom : atom piece <;> simp [termOf, atomText, hneg, hatom, Except.map]

/-! ## The descent -/

/-- Whether a token stands between two groups. -/
def Token.endsGroup (t : Token) : Bool := t.kind == .and

/-- The texts of the atoms among some tokens. -/
def Token.atoms (ts : List Token) : List (List Char) :=
  (ts.filter (·.kind == .atom)).map (·.chars)

/-- An atom in front is the first one. -/
private theorem Token.atoms_cons_atom {t : Token} (h : t.kind = .atom) (ts : List Token) :
    atoms (t :: ts) = t.chars :: atoms ts := by
  simp [atoms, h]

/-- Another token in front does not count. -/
private theorem Token.atoms_cons_of_ne {t : Token} (h : t.kind ≠ .atom) (ts : List Token) :
    atoms (t :: ts) = atoms ts := by
  simp [atoms, h]

/-- The tokens of the group at the front, and what is left behind it. -/
private theorem groupAt_cons {t : Token} (h : t.kind ≠ .and) (ts : List Token) :
    (t :: ts).takeWhile (!·.endsGroup) = t :: ts.takeWhile (!·.endsGroup) ∧
      (t :: ts).dropWhile (!·.endsGroup) = ts.dropWhile (!·.endsGroup) := by
  simp [Token.endsGroup, h]

/-- Reading a group takes the tokens in front of the first that ends a group. -/
theorem readGroup_eq {ts : List Token} (h : ts.IsChain Token.Apart) :
    readGroup atom ts =
      ((Token.atoms (ts.takeWhile (!·.endsGroup))).mapM (readTerm atom)).map
        (·, ts.dropWhile (!·.endsGroup)) := by
  fun_induction readGroup atom ts with
  | case1 => rfl
  | case2 t ts hk => simp [Token.endsGroup, Token.atoms, hk, Except.map, pure, Except.pure]
  | case3 t ts hk ih =>
    have hand : t.kind ≠ .and := by simp [hk]
    have hatom : t.kind ≠ .atom := by simp [hk]
    rw [ih h.tail, (groupAt_cons hand ts).1, (groupAt_cons hand ts).2, Token.atoms_cons_of_ne hatom]
  | case4 t ts hk fault hf =>
    have hand : t.kind ≠ .and := by simp [hk]
    rw [(groupAt_cons hand ts).1, Token.atoms_cons_atom hk, List.mapM_cons, hf]
    rfl
  | case5 t hk term hf =>
    -- The atom is the last token.
    have hand : t.kind ≠ .and := by simp [hk]
    rw [(groupAt_cons hand []).1, (groupAt_cons hand []).2, Token.atoms_cons_atom hk,
      List.mapM_cons, hf]
    rfl
  | case6 t hk term u us hf hu ih =>
    -- A bar follows the atom, and more of the group may come behind it.
    have hand : t.kind ≠ .and := by simp [hk]
    have hand' : u.kind ≠ .and := by simp [hu]
    have hatom : u.kind ≠ .atom := by simp [hu]
    rw [ih h.tail.tail, (groupAt_cons hand _).1, (groupAt_cons hand _).2,
      (groupAt_cons hand' _).1, (groupAt_cons hand' _).2, Token.atoms_cons_atom hk,
      Token.atoms_cons_of_ne hatom, List.mapM_cons, hf]
    -- What is left to see is that the first term is put in front.
    cases (Token.atoms (us.takeWhile (!·.endsGroup))).mapM (readTerm atom) <;> rfl
  | case7 t hk term u us hf hu =>
    -- What follows the atom is no atom, as no two stand side by side, so it ends the group.
    have hand : t.kind ≠ .and := by simp [hk]
    have hand' : u.kind = .and := by
      have hatom : u.kind ≠ .atom := fun hu => h.rel ⟨hk, hu⟩
      cases hkind : u.kind with
      | and => rfl
      | or => exact absurd hkind hu
      | atom => exact absurd hkind hatom
    rw [(groupAt_cons hand _).1, (groupAt_cons hand _).2, Token.atoms_cons_atom hk,
      List.mapM_cons, hf]
    simp [Token.endsGroup, Token.atoms, hand', bind, Except.bind, Except.map, pure, Except.pure]

/-- A group that is read has all terms in front of the first token that ends a group. -/
private theorem eq_ok_of_readGroup {ts rest : List Token} {group : List Requirement}
    (h : ts.IsChain Token.Apart) (hg : readGroup atom ts = .ok (group, rest)) :
    (Token.atoms (ts.takeWhile (!·.endsGroup))).mapM (readTerm atom) = .ok group ∧
      ts.dropWhile (!·.endsGroup) = rest := by
  rw [readGroup_eq atom h] at hg
  cases hm : (Token.atoms (ts.takeWhile (!·.endsGroup))).mapM (readTerm atom) with
  | error e => simp [hm, Except.map] at hg
  | ok terms =>
    simp only [hm, Except.map, Except.ok.injEq, Prod.mk.injEq] at hg
    exact ⟨by rw [hg.1], hg.2⟩

/-- A group that cannot be read has a term that cannot. -/
private theorem eq_error_of_readGroup {ts : List Token} {fault : ε}
    (h : ts.IsChain Token.Apart) (hg : readGroup atom ts = .error fault) :
    (Token.atoms (ts.takeWhile (!·.endsGroup))).mapM (readTerm atom) = .error fault := by
  rw [readGroup_eq atom h] at hg
  cases hm : (Token.atoms (ts.takeWhile (!·.endsGroup))).mapM (readTerm atom) with
  | error e => simpa [hm, Except.map] using hg
  | ok terms => simp [hm, Except.map] at hg

/-- Reading groups takes all tokens, group by group. -/
theorem readGroups_eq {ts : List Token} (h : ts.IsChain Token.Apart) :
    readGroups atom ts =
      (((Text.pieces Token.endsGroup ts).map Token.atoms).mapM
        (List.mapM (readTerm atom))).map (·, []) := by
  fun_induction readGroups atom ts with
  | case1 ts fault hg =>
    have hterms := eq_error_of_readGroup atom h hg
    rw [Text.pieces_eq_takeWhile, List.map_cons, List.mapM_cons, hterms]
    rfl
  | case2 ts group hg =>
    obtain ⟨hterms, hrest⟩ := eq_ok_of_readGroup atom h hg
    rw [Text.pieces_eq_takeWhile, List.map_cons, List.mapM_cons, hterms, hrest]
    rfl
  | case3 ts group t rest hg hk ih =>
    obtain ⟨hterms, hrest⟩ := eq_ok_of_readGroup atom h hg
    have hchain : rest.IsChain Token.Apart := by
      rw [← List.takeWhile_append_dropWhile (p := (!·.endsGroup)) (l := ts), hrest] at h
      exact h.right_of_append.tail
    rw [ih hchain, Text.pieces_eq_takeWhile Token.endsGroup ts, List.map_cons, List.mapM_cons,
      hterms, hrest]
    cases ((Text.pieces Token.endsGroup rest).map Token.atoms).mapM
      (List.mapM (readTerm atom)) <;> rfl
  | case4 ts group t rest hg hk =>
    -- Whatever a group leaves starts with a token that ends it.
    obtain ⟨-, hrest⟩ := eq_ok_of_readGroup atom h hg
    have ht := List.head?_dropWhile_not (!·.endsGroup) ts
    rw [hrest] at ht
    simp [Token.endsGroup, hk] at ht

end

/-! ## Cutting the tokens and cutting the text -/

/-- The separators of groups are the comma and the ampersand. -/
theorem endsGroup_iff {c : Char} : endsGroup c = true ↔ separator? c = some .and := by
  simp [endsGroup, separator?_eq_some_iff]

/-- The separator of terms is the bar. -/
theorem endsTerm_iff {c : Char} : endsTerm c = true ↔ separator? c = some .or := by
  simp [endsTerm, separator?_eq_some_iff]

/-- No character of a run is of a kind that only separators are of. -/
private theorem IsRun.eq_false {w : List Char} (hw : IsRun w) {p : Char → Bool} {kind : TokenKind}
    (hp : ∀ {c}, p c = true ↔ separator? c = some kind) : ∀ c ∈ w, p c = false := by
  intro c hc
  have hnone := hw c hc
  rw [← Bool.not_eq_true, hp, hnone]
  simp

/-- A run is one term, unless it is empty. -/
private theorem termTexts_run {w : List Char} (hw : IsRun w) :
    termTexts w = [[w].filter (!·.isEmpty)] := by
  rw [termTexts, Text.pieces_of_none (hw.eq_false endsGroup_iff), List.map_singleton,
    Text.pieces_of_none (hw.eq_false endsTerm_iff)]

/-- The groups on the two sides of a separator of groups make up the groups of the whole. -/
theorem termTexts_append_cons {s : Char} (hs : separator? s = some .and) (cs ds : List Char) :
    termTexts (cs ++ s :: ds) = termTexts cs ++ termTexts ds := by
  rw [termTexts, Text.pieces_append_cons (endsGroup_iff.mpr hs), List.map_append]
  rfl

/-- Where a bar stands between two texts, the terms of the last group of the first and those of the
first group of the second are one group. -/
theorem exists_termTexts_bar (cs : List Char) {s : Char} (hs : separator? s = some .or) :
    ∃ front last, termTexts cs = front ++ [last] ∧ ∀ {ds terms groups},
      termTexts ds = terms :: groups →
        termTexts (cs ++ s :: ds) = front ++ (last ++ terms) :: groups := by
  obtain ⟨front, last, hcs, happend⟩ := Text.exists_pieces_append endsGroup cs
  refine ⟨front.map fun segment => (Text.pieces endsTerm segment).filter (!·.isEmpty),
    (Text.pieces endsTerm last).filter (!·.isEmpty), by simp [termTexts, hcs], fun {ds} _ _ h => ?_⟩
  obtain ⟨segment, segments, hds, rfl, rfl⟩ := List.map_eq_cons_iff.mp h
  have hgroup : endsGroup s = false := by
    rw [← Bool.not_eq_true, endsGroup_iff, hs]
    simp
  -- The bar is in front of the first segment of the second text, and cuts it off as a term.
  have hbar : Text.pieces endsGroup (s :: ds) = (s :: segment) :: segments := by
    rw [Text.pieces, hgroup, if_neg Bool.false_ne_true, hds, Text.consFirst]
  rw [termTexts, happend hbar, List.map_append, List.map_cons,
    Text.pieces_append_cons (endsTerm_iff.mpr hs), List.filter_append]

/-- A run with a bar behind it is one more term of the first group, unless it is empty. -/
theorem termTexts_run_bar {w : List Char} {s : Char} (hw : IsRun w)
    (hs : separator? s = some .or) (cs : List Char) :
    ∃ terms groups, termTexts cs = terms :: groups ∧
      termTexts (w ++ s :: cs) = ([w].filter (!·.isEmpty) ++ terms) :: groups := by
  obtain ⟨front, last, hlast, hbar⟩ := exists_termTexts_bar w hs
  rw [termTexts_run hw, ← List.nil_append [_], List.append_singleton_inj] at hlast
  obtain ⟨rfl, rfl⟩ := hlast
  cases hcs : termTexts cs with
  | nil => exact absurd (List.map_eq_nil_iff.mp hcs) (Text.pieces_ne_nil _ _)
  | cons terms groups => exact ⟨terms, groups, rfl, hbar hcs⟩

namespace Token

/-- No token of a run ends a group. -/
private theorem endsGroup_of_mem_ofRun {w : List Char} {position : Nat} :
    ∀ t ∈ ofRun w position, t.endsGroup = false := by
  intro t ht
  rw [ofRun] at ht
  split at ht
  · simp at ht
  · rw [List.mem_singleton.mp ht]
    rfl

/-- A run is one atom, if it is not empty. -/
private theorem atoms_ofRun (w : List Char) (position : Nat) :
    atoms (ofRun w position) = [w].filter (!·.isEmpty) := by
  rw [ofRun]
  split
  · next h => simp [h, atoms]
  · next h => simp [h, atoms]

private theorem atoms_append (ts us : List Token) : atoms (ts ++ us) = atoms ts ++ atoms us := by
  simp [atoms]

end Token

/-- The atoms between the tokens that end a group are the terms of the text, group by group. -/
theorem map_atoms_pieces_scanFrom (cs : List Char) (position : Nat) :
    (Text.pieces Token.endsGroup (Token.scanFrom position cs)).map Token.atoms = termTexts cs := by
  -- The induction is on the runs of the text, with the separator behind each of them.
  induction cs using run_induction generalizing position with
  | run w hw =>
    rw [Token.scanFrom_run hw, Text.pieces_of_none Token.endsGroup_of_mem_ofRun,
      List.map_singleton, Token.atoms_ofRun, termTexts_run hw]
  | cut w s kind cs hw hs ih =>
    rw [Token.scanFrom_append_cons hw hs]
    cases kind with
    | atom => exact absurd rfl (ne_atom_of_separator? hs)
    | and =>
      rw [Text.pieces_append_cons rfl, List.map_append, ih, termTexts_append_cons hs,
        Text.pieces_of_none Token.endsGroup_of_mem_ofRun, List.map_singleton,
        Token.atoms_ofRun, termTexts_run hw]
    | or =>
      -- A bar ends no group: its run goes in front of the first group of the text behind it.
      obtain ⟨terms, groups, hcs, hwcs⟩ := termTexts_run_bar hw hs cs
      have hmap := ih (position + w.length + 1)
      rw [hcs] at hmap
      obtain ⟨segment, rest, hseg, hterms, hgroups⟩ := List.map_eq_cons_iff.mp hmap
      have hbar : ∀ t ∈ Token.ofRun w position ++ [⟨.or, [s], position + w.length⟩],
          Token.endsGroup t = false := by
        intro t ht
        rcases List.mem_append.mp ht with ht | ht
        · exact Token.endsGroup_of_mem_ofRun t ht
        · rw [List.mem_singleton.mp ht]
          rfl
      have hpieces := Text.pieces_append_of_none hbar hseg
      rw [List.append_assoc, List.singleton_append] at hpieces
      rw [hpieces, hwcs, List.map_cons, hgroups, Token.atoms_append, Token.atoms_append,
        Token.atoms_ofRun, hterms]
      simp [Token.atoms]

/-! ## Reading a text -/

/-- The texts of all atoms in order, whatever group they are in. -/
def atomTexts (cs : List Char) : List (List Char) := (termTexts cs).flatten.map atomText

/-- A term is refused as its atom is. -/
private theorem termOf_eq_error_iff {ε : Type} {atom : List Char → Except ε Requirement}
    {piece : List Char} {fault : ε} :
    termOf atom piece = .error fault ↔ atom (atomText piece) = .error fault := by
  rw [termOf]
  cases atom (atomText piece) <;> simp [Except.map]

/-- The reading fails exactly as the leftmost atom that fails. -/
theorem reading_eq_error_iff {ε : Type} {atom : List Char → Except ε Requirement}
    {cs : List Char} {fault : ε} :
    reading atom cs = .error fault ↔
      ∃ before text after, atomTexts cs = before ++ text :: after ∧
        (∀ t ∈ before, ∃ r, atom t = .ok r) ∧ atom text = .error fault := by
  -- Groups do not matter to which atom comes first, and neither do exclamation marks.
  have hterms : reading atom cs = .error fault ↔
      (termTexts cs).flatten.mapM (termOf atom) = .error fault := by
    rw [List.mapM_flatten_except, reading]
    cases (termTexts cs).mapM (List.mapM (termOf atom)) <;>
      simp [bind, Except.bind, Except.map]
  have hatoms : (termTexts cs).flatten.mapM (termOf atom) = .error fault ↔
      (atomTexts cs).mapM atom = .error fault := by
    rw [atomTexts, List.mapM_map]
    exact List.mapM_congr_error (fun _ _ => termOf_eq_error_iff) _ _
  rw [hterms, hatoms, List.mapM_eq_error_iff]

/-- Reading a text that is not empty follows the grammar. -/
theorem readWith_eq_reading (atom : List Char → Except ReadFault Requirement) {text : String}
    (h : text ≠ "") : readWith atom (some text) = reading atom text.toList := by
  have hread : readTerm atom = termOf atom := funext (readTerm_eq_termOf atom)
  rw [readWith, if_neg h, Token.scan, readGroups_eq atom (Token.isChain_scanFrom _ 0),
    map_atoms_pieces_scanFrom, hread, reading]
  cases (termTexts text.toList).mapM (List.mapM (termOf atom)) <;> rfl

/-- A run that is not empty is read as one group of one term. -/
theorem readWith_run (atom : List Char → Except ReadFault Requirement) {text : String}
    (hrun : IsRun text.toList) (h : text ≠ "") :
    readWith atom (some text) = (termOf atom text.toList).map fun t => .allOf [.anyOf [t]] := by
  have hempty : text.toList.isEmpty = false := by simpa using h
  have hterms : termTexts text.toList = [[text.toList]] := by simp [termTexts_run hrun, hempty]
  rw [readWith_eq_reading atom h, reading, hterms, List.mapM_cons, List.mapM_cons, List.mapM_nil]
  cases termOf atom text.toList <;> rfl

/-- An atom is refused for its form or for a numeral, and not for where it stands. -/
private theorem versionAtom_ne_unexpected (cs : List Char) (token : String) (position : Nat)
    (text : String) :
    versionAtom cs ≠ .error (.malformed (.unexpectedToken token position text)) := by
  intro h
  rw [versionAtom] at h
  cases hread : Term.readChars cs with
  | ok term => simp [hread, Except.map] at h
  | error fault =>
    simp only [hread, Except.map, Except.error.injEq] at h
    subst h
    obtain h | ⟨-, digits, -, h⟩ := Term.readChars_fault hread <;> simp at h

/-- An atom stands somewhere in the text. -/
private theorem infix_of_mem_atomTexts {cs piece : List Char} (h : piece ∈ atomTexts cs) :
    piece <:+: cs := by
  obtain ⟨term, hterm, rfl⟩ := List.mem_map.mp h
  obtain ⟨terms, hterms, hterm⟩ := List.mem_flatten.mp hterm
  obtain ⟨segment, hsegment, rfl⟩ := List.mem_map.mp hterms
  have hatom : atomText term <:+ term := by
    rw [atomText]
    split
    · exact List.tail_suffix term
    · exact List.suffix_refl term
  exact (hatom.isInfix.trans (Text.infix_of_mem_pieces (List.mem_of_mem_filter hterm))).trans
    (Text.infix_of_mem_pieces hsegment)

/-- A requirement that is refused for a numeral has a term that is. -/
private theorem exists_term_of_read {text : Option String} {numeral : Decimal.TooLong}
    (h : read text = .error (.tooLong numeral)) :
    ∃ s piece, text = some s ∧ piece <:+: s.toList ∧
      Term.readChars piece = .error (.tooLong numeral) := by
  cases text with
  | none => simp [read, readWith] at h
  | some text =>
    by_cases hne : text = ""
    · simp [read, readWith, hne] at h
    · rw [read, readWith_eq_reading versionAtom hne, reading_eq_error_iff] at h
      obtain ⟨before, piece, after, hsplit, -, hpiece⟩ := h
      refine ⟨text, piece, rfl, infix_of_mem_atomTexts (by rw [hsplit]; simp), ?_⟩
      rw [versionAtom] at hpiece
      cases hread : Term.readChars piece with
      | ok term => simp [hread, Except.map] at hpiece
      | error fault => simpa [hread, Except.map] using hpiece

/-- A requirement that is refused for a numeral has one that is too long. -/
theorem isOverlong_of_read {text : Option String} {numeral : Decimal.TooLong}
    (h : read text = .error (.tooLong numeral)) : ReadFault.IsOverlong (.tooLong numeral) := by
  obtain ⟨-, piece, -, -, hpiece⟩ := exists_term_of_read h
  obtain h | ⟨-, hlong⟩ := Term.readChars_fault hpiece
  · contradiction
  · exact hlong

/-- The numeral stands in the text. -/
theorem hasLongNumeral_of_read {s : String} {numeral : Decimal.TooLong}
    (h : read (some s) = .error (.tooLong numeral)) : Decimal.HasLongNumeral s.toList := by
  obtain ⟨s, piece, hs, hin, hpiece⟩ := exists_term_of_read h
  obtain rfl := Option.some.inj hs
  obtain h | ⟨hlong, -⟩ := Term.readChars_fault hpiece
  · contradiction
  · exact hlong.of_infix hin

/-- A name of a mod is never refused as an unexpected token. -/
private theorem modAtom_ne_unexpected (cs : List Char) (token : String) (position : Nat)
    (text : String) :
    modAtom cs ≠ .error (.malformed (.unexpectedToken token position text)) := by
  rw [modAtom]
  split <;> simp

/-- A reader of requirements that goes by the grammar on a text, with the given atoms. -/
structure FollowsGrammar (reader : Option String → Except ReadFault Requirement)
    (atom : List Char → Except ReadFault Requirement) (text : String) : Prop where
  /-- Groups and terms are those of the grammar. -/
  eq_reading : reader (some text) = reading atom text.toList
  /-- The leftmost atom that is refused decides the fault, wherever it stands. -/
  leftmost : ∀ before piece after fault, atomTexts text.toList = before ++ piece :: after →
    (∀ t ∈ before, ∃ r, atom t = .ok r) → atom piece = .error fault →
      reader (some text) = .error fault
  /-- No token ever stands where the requirement should end. -/
  never_unexpected : ∀ token position whole,
    reader (some text) ≠ .error (.malformed (.unexpectedToken token position whole))

/-- A reader follows the grammar if its atoms are never refused as unexpected tokens. -/
private theorem readWith_followsGrammar {atom : List Char → Except ReadFault Requirement}
    (hatom : ∀ cs token position whole,
      atom cs ≠ .error (.malformed (.unexpectedToken token position whole)))
    {text : String} (h : text ≠ "") : FollowsGrammar (readWith atom) atom text where
  eq_reading := readWith_eq_reading atom h
  leftmost before piece after fault hsplit hbefore hpiece := by
    rw [readWith_eq_reading atom h, reading_eq_error_iff]
    exact ⟨before, piece, after, hsplit, hbefore, hpiece⟩
  never_unexpected token position whole hfault := by
    rw [readWith_eq_reading atom h, reading_eq_error_iff] at hfault
    obtain ⟨-, piece, -, -, -, hpiece⟩ := hfault
    exact hatom piece token position whole hpiece

/-- Requirements on the version and requirements on mods are read by the grammar. -/
theorem read_followsGrammar {text : String} (h : text ≠ "") :
    FollowsGrammar read versionAtom text ∧ FollowsGrammar readNeeds modAtom text :=
  ⟨readWith_followsGrammar versionAtom_ne_unexpected h,
    readWith_followsGrammar modAtom_ne_unexpected h⟩

/-- Among versions, a text with a doubled bar and an open end is a requirement that never holds,
and among mods it is refused for its second atom. -/
theorem read_followsGrammar_open_end :
    "!1.8||<≈1.9," ≠ "" ∧
      read (some "!1.8||<≈1.9,") =
        .ok (.allOf [.anyOf [.negation (.version ⟨.bare, .minor 1 8⟩),
          .version ⟨.lessEquivalent, .minor 1 9⟩], .anyOf []]) ∧
      readNeeds (some "!1.8||<≈1.9,") = .error (.malformed (.modName "<≈1.9")) := by
  have hne : "!1.8||<≈1.9," ≠ "" := by decide
  obtain ⟨hversion, hmods⟩ := read_followsGrammar hne
  refine ⟨hne, ?_, ?_⟩
  · rw [hversion.eq_reading]
    rfl
  · refine hmods.leftmost ["1.8".toList] "<≈1.9".toList [] _ (by decide) ?_ rfl
    intro t ht
    rw [List.mem_singleton.mp ht]
    exact ⟨.mod "1.8", rfl⟩

end VersionGate.Requirement
